import ScimQuery.Log.Selection
import ScimQuery.Proofs.Meaning
import ScimQuery.Proofs.Refusal

/-!
# The log of a compilation

A compilation walks over a filter from left to right, and what it writes so far is a predicate that
grows step by step (`Filter.run_steps`). The log tells each condition that is written, with just the
text and the parameter that it adds, and then how the walk ends (`compilation_logged`).
-/

namespace ScimQuery

open Log (Event)

/-! ### The steps of a walk -/

/-- A step of the walk over a filter. -/
inductive WalkStep where
  /-- Text around and between conditions. -/
  | glue (text : String)
  /-- A condition within a scope, with what stands behind it. -/
  | condition (scope : Option String) (c : Condition) (tail : String)
  /-- A node that no predicate is made from. -/
  | refused (kind : NodeKind)

/-- The steps from left to right. A connective is a step of its own only behind a group. -/
def Filter.steps (scope : Option String) : Filter → List WalkStep
  | condition c => [.condition scope c Predicate.noConnective]
  | logical left k right =>
    let first := match left.condition? with
      | some c => [.condition scope c k.sql]
      | none => left.steps scope ++ [.glue (" " ++ k.sql ++ " ")]
    .glue " ( " :: (first ++ right.steps scope ++ [.glue " ) "])
  | valuePath path inner =>
    match scope with
    | none => inner.steps (some path.toAttribute.text)
    | some _ => [.refused .valuePath]
  | negation _ => [.refused .negation]

namespace WalkStep

/-- The item that a step is at. -/
def item? : WalkStep → Option Item
  | glue _ => none
  | condition scope c _ => some (.condition scope c)
  | refused kind => some (.refused kind)

@[simp] theorem item?_glue (text : String) : (glue text).item? = none := rfl

@[simp] theorem item?_condition (scope : Option String) (c : Condition) (tail : String) :
    (condition scope c tail).item? = some (.condition scope c) := rfl

def failure? (table : MappingTable) (s : WalkStep) : Option CompileError :=
  s.item?.bind (Item.failure? table)

end WalkStep

/-- Apart from the text between them, the steps are the items of the filter. -/
theorem Filter.items_of_steps (f : Filter) (scope : Option String) :
    (f.steps scope).filterMap WalkStep.item? = f.items scope := by
  induction f generalizing scope with
  | condition => rfl
  | logical left k right first rest =>
    rw [items, ← first, ← rest, steps]
    cases inner : left.condition? with
    | some c =>
      obtain rfl := condition?_eq_some inner
      simp [steps, List.filterMap_cons]
    | none => simp [List.filterMap_cons]
  | valuePath path inner ih =>
    cases scope with
    | none => exact ih _
    | some _ => rfl
  | negation => rfl

/-! ### What is written so far -/

/-- Two pieces of a predicate one behind the other. -/
instance : Append Predicate := ⟨fun p q => ⟨p.text ++ q.text, p.parameters ++ q.parameters⟩⟩

theorem Predicate.append_def (p q : Predicate) :
    p ++ q = ⟨p.text ++ q.text, p.parameters ++ q.parameters⟩ := rfl

theorem Predicate.append_assoc (p q r : Predicate) : p ++ q ++ r = p ++ (q ++ r) := by
  simp only [append_def, String.append_assoc, List.append_assoc]

@[simp] theorem Predicate.append_empty (p : Predicate) : p ++ ({} : Predicate) = p := by
  simp [append_def]

@[simp] theorem Predicate.empty_append (p : Predicate) : ({} : Predicate) ++ p = p := by
  simp [append_def]

/-- A group is its operands between glue. -/
theorem Predicate.group_eq (l r : Predicate) :
    l.group r = ⟨" ( ", []⟩ ++ l ++ r ++ ⟨" ) ", []⟩ := by
  simp [group, append_def]

theorem Predicate.followedBy_eq (p : Predicate) (k : Connective) :
    p.followedBy k = p ++ ⟨" " ++ k.sql ++ " ", []⟩ := by
  simp [followedBy, append_def, String.append_assoc]

/-- A step adds to what is written so far, or ends the walk. -/
def WalkStep.run (table : MappingTable) (requestId : String) (written : Predicate) :
    WalkStep → Recorded CompileError Predicate
  | glue text => pure (written ++ ⟨text, []⟩)
  | condition scope c tail => (written ++ ·) <$> c.compile table requestId scope tail
  | refused kind => throw (.unsupported kind)

/-- A compilation is the run of its steps, in what it writes and in what it tells the log. -/
theorem Filter.run_steps (f : Filter) (table : MappingTable) (requestId : String)
    (scope : Option String) (written : Predicate) :
    (f.steps scope).foldlM (WalkStep.run table requestId) written =
      (written ++ ·) <$> f.compile table requestId scope := by
  -- What is written so far is left free: the right operand starts behind the left one.
  induction f generalizing scope written with
  | condition c => simp [steps, compile, WalkStep.run]
  | logical left k right first rest =>
    cases inner : left.condition? with
    | some c =>
      simp [steps, compile, inner, WalkStep.run, rest, Predicate.group_eq, Predicate.append_assoc]
    | none =>
      simp [steps, compile, inner, WalkStep.run, first, rest, Predicate.group_eq,
        Predicate.followedBy_eq, Predicate.append_assoc]
  | valuePath path inner ih =>
    cases scope with
    | none => exact ih _ _
    | some _ => rfl
  | negation => rfl

/-! ### Steps that are written -/

/-- What steps that do not fail write, one after the other, and what the log is told of it: of a
condition just the text that it adds, with the parameter if it binds one, and of glue nothing. -/
inductive Writes (table : MappingTable) : List WalkStep → Predicate → List Event → Prop where
  | done : Writes table [] {} []
  | glue {text steps p told} (rest : Writes table steps p told) :
      Writes table (.glue text :: steps) (⟨text, []⟩ ++ p) told
  | presence {scope c tail column steps p told} (binds : c.Binds table scope column none)
      (rest : Writes table steps p told) :
      Writes table (.condition scope c tail :: steps)
        (⟨Predicate.conditionText column c.operator none ++ tail, []⟩ ++ p)
        (.presence (Predicate.conditionText column c.operator none ++ tail) :: told)
  | comparison {scope c tail column v steps p told} (binds : c.Binds table scope column (some v))
      (rest : Writes table steps p told) :
      Writes table (.condition scope c tail :: steps)
        (⟨Predicate.conditionText column c.operator (some v) ++ tail, [v]⟩ ++ p)
        (.comparison (Predicate.conditionText column c.operator (some v) ++ tail) v.display :: told)

theorem Condition.compile_of_binds {c : Condition} {table : MappingTable} {scope : Option String}
    {column : Column} {v : Option Parameter} (binds : c.Binds table scope column v)
    (requestId tail : String) :
    c.compile table requestId scope tail =
      ⟨[(Predicate.ofCondition column c.operator v tail).event],
        .ok (.ofCondition column c.operator v tail)⟩ := by
  rw [compile, binds.1]
  dsimp only
  rw [binds.2]
  rfl

theorem Recorded.ok_bind (events : List Event) (a : α) (f : α → Recorded ε β) :
    (⟨events, .ok a⟩ >>= f : Recorded ε β) = ⟨events ++ (f a).events, (f a).result⟩ := rfl

/-- Steps that are written add their pieces to the predicate and their events to the log. -/
theorem Writes.run {table : MappingTable} {steps : List WalkStep} {p : Predicate}
    {told : List Event} (h : Writes table steps p told) (requestId : String)
    (written : Predicate) :
    steps.foldlM (WalkStep.run table requestId) written = ⟨told, .ok (written ++ p)⟩ := by
  induction h generalizing written with
  | done => simp [pure]
  | glue _ ih => rw [List.foldlM_cons, WalkStep.run, pure_bind, ih, Predicate.append_assoc]
  | presence binds _ ih | comparison binds _ ih =>
    rw [List.foldlM_cons, WalkStep.run, Condition.compile_of_binds binds, bind_map_left,
      Recorded.ok_bind, ih, Predicate.append_assoc]
    rfl

theorem WalkStep.writes_cons {table : MappingTable} {s : WalkStep}
    (passes : s.failure? table = none) {steps : List WalkStep} {p : Predicate} {told : List Event}
    (rest : Writes table steps p told) :
    ∃ p' told', Writes table (s :: steps) p' told' := by
  cases s with
  | glue text => exact ⟨_, _, .glue rest⟩
  | condition scope c tail =>
    have passes : c.failure? table scope = none := passes
    rw [← c.failureOf?_compile table "" scope tail, failureOf?_eq_none] at passes
    obtain ⟨q, compiled⟩ := passes
    obtain ⟨column, v, binds, _⟩ := Condition.compile_ok_iff.mp compiled
    cases v with
    | none => exact ⟨_, _, .presence binds rest⟩
    | some v => exact ⟨_, _, .comparison binds rest⟩
  | refused kind => cases passes

/-- The steps up to the first one that fails, if any, are written. -/
theorem exists_writes (table : MappingTable) (steps : List WalkStep) :
    ∃ before behind p told, steps = before ++ behind ∧ Writes table before p told ∧
      ∀ s ∈ behind.head?, ∃ e, s.failure? table = some e := by
  induction steps with
  | nil => exact ⟨[], [], _, _, rfl, .done, by simp⟩
  | cons s steps ih =>
    cases failure : s.failure? table with
    | none =>
      obtain ⟨before, behind, p, told, rfl, writes, stops⟩ := ih
      obtain ⟨p', told', writes'⟩ := WalkStep.writes_cons failure writes
      exact ⟨s :: before, behind, p', told', rfl, writes', stops⟩
    | some e =>
      refine ⟨[], s :: steps, _, _, rfl, .done, ?_⟩
      rintro _ ⟨⟩
      exact ⟨e, failure⟩

/-! ### The end of a walk -/

/-- Only a field without a column is warned of. -/
def CompileError.warnings (requestId : String) : CompileError → List Event
  | unmapped subject => [.invalidField requestId (unmapped subject).message]
  | _ => []

theorem Condition.warnings_of_valueFailure {c : Condition} {column : Column} {e : CompileError}
    (h : c.valueFailure? column = some e) (requestId : String) : e.warnings requestId = [] := by
  unfold valueFailure? at h
  split at h
  · cases h
  · cases given : c.value with
    | none =>
      simp only [given, Option.some.injEq] at h
      subst h
      rfl
    | some value =>
      simp only [given] at h
      split at h
      · cases h
      · obtain rfl := Option.some.inj h
        rfl

theorem Condition.compile_of_failure {c : Condition} {table : MappingTable}
    {scope : Option String} {e : CompileError} (fails : c.failure? table scope = some e)
    (requestId tail : String) :
    c.compile table requestId scope tail = ⟨e.warnings requestId, .error e⟩ := by
  unfold failure? at fails
  rw [← MappingTable.find?_eq_findSome?] at fails
  unfold compile MappingTable.resolve
  cases found : table.find? c.path.toAttribute scope with
  | none =>
    rw [found] at fails
    obtain rfl := Option.some.inj fails
    rfl
  | some column =>
    rw [found] at fails
    dsimp only at fails ⊢
    rw [warnings_of_valueFailure fails]
    rw [← failureOf?_bind, failureOf?_eq_some] at fails
    rw [fails]
    rfl

theorem WalkStep.run_of_failure {table : MappingTable} {s : WalkStep} {e : CompileError}
    (fails : s.failure? table = some e) (requestId : String) (written : Predicate) :
    s.run table requestId written = ⟨e.warnings requestId, .error e⟩ := by
  cases s with
  | glue => cases fails
  | condition scope c tail =>
    rw [run, Condition.compile_of_failure fails]
    rfl
  | refused kind =>
    obtain rfl := Option.some.inj fails
    rfl

/-- A compilation writes the steps up to the first one that fails, if any. -/
theorem Filter.compile_writes (f : Filter) (table : MappingTable) (requestId : String) :
    ∃ before behind written told, f.steps none = before ++ behind ∧
      Writes table before written told ∧
      ((behind = [] ∧ f.compile table requestId none = ⟨told, .ok written⟩) ∨
        ∃ s rest e, behind = s :: rest ∧ s.failure? table = some e ∧
          f.compile table requestId none = ⟨told ++ e.warnings requestId, .error e⟩) := by
  obtain ⟨before, behind, written, told, split, writes, stops⟩ := exists_writes table (f.steps none)
  refine ⟨before, behind, written, told, split, writes, ?_⟩
  have walked := f.run_steps table requestId none {}
  simp only [split, List.foldlM_append, writes.run requestId, Predicate.empty_append, id_map']
    at walked
  rw [← walked]
  cases behind with
  | nil =>
    refine .inl ⟨rfl, ?_⟩
    simp
  | cons s rest =>
    obtain ⟨e, fails⟩ := stops s rfl
    refine .inr ⟨s, rest, e, rfl, fails, ?_⟩
    rw [Recorded.ok_bind, List.foldlM_cons, WalkStep.run_of_failure fails]
    rfl

theorem Query.events_compile (f : Filter) (table : MappingTable) (order : SortOrder) (page : Page)
    (requestId : String) :
    (Query.compile (some f) table order page requestId).events =
      .compiling requestId f.kind.name table.size :: ((f.compile table requestId none).events ++
        match (f.compile table requestId none).result with
        | .ok p => [.compiled requestId p.parameters.length]
        | .error _ => []) := by
  simp only [compile, Recorded.events_bind, Recorded.result_log]
  cases (f.compile table requestId none).result <;> simp [Recorded.log]

/-- How a compilation ends that has written a predicate and has these steps left, and its last
events: the number of parameters after a success, the one warning of a field without a column, and
nothing after any other failure. -/
inductive Ends (table : MappingTable) (requestId : String) (order : SortOrder) (page : Page)
    (written : Predicate) : List WalkStep → Except CompileError Query → List Event → Prop where
  | compiled :
      Ends table requestId order page written [] (.ok ⟨written, page.sql, order.sql⟩)
        [.compiled requestId written.parameters.length]
  | unmapped {s rest subject} (fails : s.failure? table = some (.unmapped subject)) :
      Ends table requestId order page written (s :: rest) (.error (.unmapped subject))
        [.invalidField requestId (CompileError.unmapped subject).message]
  | refused {s rest e} (fails : s.failure? table = some e)
      (mapped : ∀ subject, e ≠ .unmapped subject) :
      Ends table requestId order page written (s :: rest) (.error e) []

theorem Ends.failed {table : MappingTable} {s : WalkStep} {e : CompileError}
    (fails : s.failure? table = some e) (requestId : String) (order : SortOrder) (page : Page)
    (written : Predicate) (rest : List WalkStep) :
    Ends table requestId order page written (s :: rest) (.error e) (e.warnings requestId) := by
  cases e with
  | unmapped subject => exact .unmapped fails
  | _ => exact .refused fails nofun

/-! ### The log of a query -/

namespace Log

theorem parse_trace : Directive.parse "trace" = .ok {} := by
  have bare : Text.trim "trace".toList = ['t', 'r', 'a', 'c', 'e'] := by decide
  have whole :
      Directive.place? ['t', 'r', 'a', 'c', 'e'] 0 (fun c => c = '=' || c = '[') = none := by
    decide
  have lower : "trace".map Char.toLower = "trace" := by
    rw [← String.toList_inj, String.toList_map]
    decide
  have number : Decimal.uint64? "trace" = none := by decide
  have level : Directive.levelOrTarget "trace" = {} := by
    rw [Directive.levelOrTarget, rankOf, number, lower]
    rfl
  have target : Directive.beginsTarget 't' = true := by decide
  simp only [Directive.parse, bare, whole, level]
  exact if_pos target

/-- At the level `trace` every event is written. -/
theorem written_trace (events : List Event) : written "trace" events = events := by
  have word : "trace".splitOn "," = ["trace"] := by
    simp +decide [String.splitOn, String.splitOnAux]
  have words : words "trace" = ["trace"] := by
    rw [words, word]
    decide
  have read : readable "trace" = [{}] := by simp [readable, words, parse_trace, Except.toOption]
  rw [written, read, List.filter_eq_self]
  intro e _
  cases e <;> rfl

end Log

/-- At the level `trace` the log of a compilation has the kind of the root and the size of the
table, then for each condition in front of the first item that fails what it adds to the predicate,
then how the compilation ends. -/
theorem compilation_logged (f : Filter) (table : MappingTable) (order : SortOrder) (page : Page)
    (requestId : String) :
    (f.steps none).filterMap WalkStep.item? = f.items none ∧
    ∃ before behind written told last,
      f.steps none = before ++ behind ∧
      Writes table before written told ∧
      Ends table requestId order page written behind
        (Query.compile (some f) table order page requestId).result last ∧
      Log.written "trace" (Query.compile (some f) table order page requestId).events =
        .compiling requestId f.kind.name table.size :: (told ++ last) := by
  refine ⟨f.items_of_steps none, ?_⟩
  rw [Log.written_trace, Query.events_compile, Query.result_compile]
  obtain ⟨before, behind, written, told, split, writes, outcome⟩ := f.compile_writes table requestId
  rcases outcome with ⟨rfl, compiled⟩ | ⟨s, rest, e, rfl, fails, failed⟩
  · rw [compiled]
    exact ⟨before, [], written, told, _, split, writes, .compiled, rfl⟩
  · rw [failed]
    refine ⟨before, s :: rest, written, told, _, split, writes, .failed fails .., ?_⟩
    rw [List.append_nil]

/-- A failure to the right of a group: the conditions of the group are told, then the warning. -/
example :
    (Query.compile (some (.logical scopedFilter .and (.condition ⟨{ name := "from" }, .pr, none⟩)))
      messages ⟨"msg.id", .asc⟩ ⟨0, 10⟩ "r7").events =
      [.compiling "r7" "logical" 3, .comparison " (rcp.type LIKE ?) AND" "%)?%",
        .presence " (msg.id IS NOT NULL)  ", .comparison " (msg.size >= ?)  " "4",
        .invalidField "r7" "Invalid/unmapped field supplied: from"] := by rfl

end ScimQuery
