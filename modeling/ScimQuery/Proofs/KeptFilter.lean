import ScimQuery.Proofs.SafeQuery
import ScimQuery.Proofs.WrittenJson

/-!
# Kept filters

No run drops a filter: a printed predicate is empty only where the filter text is blank or null
(`printed_filter_kept`). The reader takes nothing but `null` for the lack of a filter, and whatever
a filter compiles to is not empty.
-/

namespace ScimQuery

open Json CommandLine

/-- A filter text that asks for no filter: Unicode white space, or null between JSON blanks. -/
inductive AsksForNone (text : String) : Prop where
  | blank (all : ∀ c ∈ text.toList, Text.isBlank c = true)
  | null {before behind : List Char} (blankBefore : Blanks before) (blankBehind : Blanks behind)
      (spelled : text.toList = before ++ "null".toList ++ behind)

/-! ### Reading null -/

theorem Filter.parse_none_iff {text : String} :
    Filter.parse text = .ok none ↔
      ∃ before behind, Blanks before ∧ Blanks behind ∧
        text.toList = before ++ "null".toList ++ behind := by
  unfold Filter.parse
  rw [readAll_ok_iff]
  constructor
  · rintro ⟨behind, read, blankBehind⟩
    obtain ⟨before, blankBefore, spelled⟩ := exists_blanks_append_skipSpace text.toList
    rw [readOption_none_iff.mp read, ← List.append_assoc] at spelled
    exact ⟨before, behind, blankBefore, blankBehind, spelled⟩
  · rintro ⟨before, behind, blankBefore, blankBehind, spelled⟩
    refine ⟨behind, ?_, blankBehind⟩
    rw [readOption_none_iff, spelled, List.append_assoc, skipSpace_append blankBefore]
    exact skipSpace_cons (by decide) _

theorem Program.readFilter_none_iff {text : String} :
    Program.readFilter text = .ok none ↔ AsksForNone text := by
  have parsed : (Filter.ofRequest text).mapError RunError.refused = .ok none ↔
      Filter.parse text = .ok none := by
    rw [mapError_ok_iff, Filter.ofRequest, mapError_ok_iff]
  unfold Program.readFilter
  split
  · next blank =>
    have all : ∀ c ∈ text.toList, Text.isBlank c = true := List.all_eq_true.mp blank
    exact ⟨fun _ => .blank all, fun _ => rfl⟩
  · next solid =>
    rw [parsed, Filter.parse_none_iff]
    constructor
    · rintro ⟨before, behind, blankBefore, blankBehind, spelled⟩
      exact .null blankBefore blankBehind spelled
    · rintro (all | ⟨blankBefore, blankBehind, spelled⟩)
      · exact absurd (List.all_eq_true.mpr all) solid
      · exact ⟨_, _, blankBefore, blankBehind, spelled⟩

/-! ### Compiling -/

theorem Query.predicate_empty_iff {filter : Option Filter} {table : MappingTable}
    {order : SortOrder} {page : Page} {requestId : String} {q : Query}
    (compiled : (Query.compile filter table order page requestId).result = .ok q) :
    q.predicate.text = "" ↔ filter = none := by
  cases filter with
  | none =>
    obtain rfl := Except.ok.inj compiled
    exact ⟨fun _ => rfl, fun _ => rfl⟩
  | some f =>
    obtain ⟨p, compiles, rfl⟩ := Query.compile_ok_iff.mp compiled
    obtain ⟨cs, blankFirst⟩ := compiles.text_eq_cons
    have written : p.text ≠ "" := by
      intro empty
      rw [empty] at blankFirst
      cases blankFirst
    simp [written]

theorem Query.predicate_of_none {table : MappingTable} {order : SortOrder} {page : Page}
    {requestId : String} {q : Query}
    (compiled : (Query.compile none table order page requestId).result = .ok q) :
    q.predicate = {} := by
  obtain rfl := Except.ok.inj compiled
  rfl

theorem Program.compile_filter_kept {settings : Settings} {world : Surroundings}
    {o : CompileOptions} {text : String} {q : Query}
    (given : Program.readText world o.filterFile = .ok text)
    (compiled : (Program.compile settings world o).result = .ok q) :
    (q.predicate.text = "" ↔ AsksForNone text) ∧
      (AsksForNone text → q.predicate.parameters = []) := by
  simp only [Program.compile, Recorded.result_bind, except_bind_ok_iff, Recorded.result_silent,
    Recorded.result_mapError, mapError_ok_iff, Program.task, bind_ok_iff, pure_ok_iff, given,
    Except.ok.injEq] at compiled
  obtain ⟨_, ⟨_, _, _, rfl, filter, read, _, _, rfl⟩, compiled⟩ := compiled
  have none_iff : filter = none ↔ AsksForNone text := by
    rw [← Program.readFilter_none_iff, read, Except.ok.injEq]
  refine ⟨(Query.predicate_empty_iff compiled).trans none_iff, fun asks => ?_⟩
  obtain rfl := none_iff.mpr asks
  rw [Query.predicate_of_none compiled]

/-! ### Runs -/

/-- A run of the `compile` command prints the query that it compiles, or fails and prints
nothing. -/
theorem Program.run_compile {world : Surroundings} {words : List String} {overrides : Overrides}
    {o : CompileOptions}
    (parsed : CommandLine.parse world.environment words = .ok ⟨overrides, .compile o⟩) :
    ((Program.run world words).exitCode = 0 ∧
      ∃ settings q, (Settings.load world.files world.home overrides).result = .ok settings ∧
        (Program.compile settings world o).result = .ok q ∧
        (Program.run world words).stdout = q.toJson.pretty ++ "\n") ∨
    ((Program.run world words).exitCode = 1 ∧ (Program.run world words).stdout = "") := by
  simp only [Program.run, parsed]
  cases performed : (Program.perform world ⟨overrides, .compile o⟩).result with
  | error e => exact .inr ⟨rfl, rfl⟩
  | ok lines =>
    simp only [Program.perform, Program.print, Recorded.result_bind, except_bind_ok_iff,
      Recorded.result_mapError, mapError_ok_iff, Recorded.result_pure, Except.ok.injEq]
      at performed
    obtain ⟨_, _, settings, loaded, q, compiled, rfl⟩ := performed
    exact .inl ⟨rfl, settings, q, loaded, compiled, by simp [Program.Outcome.stdout]⟩

/-- A run of the `compile` command fails and prints nothing, or it prints a query whose predicate
is empty when the filter text asks for no filter, and only then. -/
theorem printed_filter_kept {world : Surroundings} {words : List String} {overrides : Overrides}
    {o : CompileOptions} {text : String}
    (parsed : CommandLine.parse world.environment words = .ok ⟨overrides, .compile o⟩)
    (given : Program.readText world o.filterFile = .ok text) :
    ((Program.run world words).exitCode = 0 ∧
      ∃ settings q, (Settings.load world.files world.home overrides).result = .ok settings ∧
        (Program.compile settings world o).result = .ok q ∧
        (Program.run world words).stdout = q.toJson.pretty ++ "\n" ∧
        (q.predicate.text = "" ↔ AsksForNone text) ∧
        (AsksForNone text → q.predicate.parameters = [])) ∨
    ((Program.run world words).exitCode = 1 ∧ (Program.run world words).stdout = "") := by
  rcases Program.run_compile parsed with ⟨ended, settings, q, loaded, compiled, printed⟩ | failed
  · have kept := Program.compile_filter_kept given compiled
    exact .inl ⟨ended, settings, q, loaded, compiled, printed, kept⟩
  · exact .inr failed

/-- The world of `sampleWorld` with null for a filter. -/
def unfilteredWorld : Surroundings where
  files := sampleWorld.files
  input := .ok "\t null\n"

theorem sampleWorld_filter_kept :
    (∃ q : Query,
      (Program.run sampleWorld ["compile", "--resource", "u"]).stdout = q.toJson.pretty ++ "\n" ∧
      q.predicate.text ≠ "") ∧
    ∃ q : Query,
      (Program.run unfilteredWorld ["compile", "--resource", "u"]).stdout =
        q.toJson.pretty ++ "\n" ∧ q.predicate.text = "" ∧ q.predicate.parameters = [] := by
  have parsed : ∀ world : Surroundings, world.environment = (fun _ => none) →
      CommandLine.parse world.environment ["compile", "--resource", "u"] =
        .ok ⟨{}, .compile { resource := "u" }⟩ := by
    intro world bare
    rw [bare]
    rfl
  constructor
  · have ended : (Program.run sampleWorld ["compile", "--resource", "u"]).exitCode ≠ 1 := by
      decide +kernel
    obtain ⟨input, given⟩ : ∃ input, Program.readText sampleWorld none = .ok input := ⟨_, rfl⟩
    rcases printed_filter_kept (parsed sampleWorld rfl) given with
      ⟨_, _, q, _, _, printed, kept, _⟩ | ⟨failed, _⟩
    · refine ⟨q, printed, fun empty => ?_⟩
      have none := Program.readFilter_none_iff.mpr (kept.mp empty)
      have some : (Program.readFilter input).toOption.join.isSome = true := by
        cases given
        decide +kernel
      rw [none] at some
      cases some
    · exact absurd failed ended
  · have ended : (Program.run unfilteredWorld ["compile", "--resource", "u"]).exitCode ≠ 1 := by
      decide +kernel
    have asks : AsksForNone "\t null\n" :=
      @AsksForNone.null _ "\t ".toList "\n".toList (List.all_eq_true.mp (by decide))
        (List.all_eq_true.mp (by decide)) rfl
    rcases printed_filter_kept (parsed unfilteredWorld rfl) rfl with
      ⟨_, _, q, _, _, printed, kept, bound⟩ | ⟨failed, _⟩
    · exact ⟨q, printed, kept.mpr asks, bound asks⟩
    · exact absurd failed ended

end ScimQuery
