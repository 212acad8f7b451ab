import ScimQuery.Proofs.Binding

/-!
# Filters without value paths

A value path can be taken out of a filter when the conditions in it are put on the attributes that
its scope gives them. `flat_same_query` shows that neither the parameters nor, but for the number of
blanks, the text of the predicate changes.
-/

namespace ScimQuery

/-! ### Runs of blanks -/

/-- Puts a character in front of a text, unless it is a blank in front of a blank. -/
def squeeze (c : Char) (text : List Char) : List Char :=
  if c = ' ' ∧ text.head? = some ' ' then text else c :: text

/-- A text with one blank in the place of each run of blanks. -/
def collapsed (text : List Char) : List Char := text.foldr squeeze []

theorem head?_squeeze_blank (text : List Char) : (squeeze ' ' text).head? = some ' ' := by
  unfold squeeze
  split
  · next blank => exact blank.2
  · rfl

theorem squeeze_blank_of_head {text : List Char} (blank : text.head? = some ' ') :
    squeeze ' ' text = text :=
  if_pos ⟨rfl, blank⟩

theorem foldr_collapsed (xs text : List Char) :
    (collapsed xs).foldr squeeze text = xs.foldr squeeze text := by
  induction xs with
  | nil => rfl
  | cons c xs ih =>
    show (squeeze c (collapsed xs)).foldr squeeze text = squeeze c (xs.foldr squeeze text)
    rw [← ih]
    by_cases dropped : c = ' ' ∧ (collapsed xs).head? = some ' '
    · obtain ⟨rfl, blank⟩ := dropped
      obtain ⟨cs, front⟩ := List.head?_eq_some_iff.mp blank
      rw [squeeze_blank_of_head blank, front]
      exact (squeeze_blank_of_head (head?_squeeze_blank _)).symm
    · rw [squeeze, if_neg dropped]
      rfl

theorem collapsed_append (xs ys : List Char) :
    collapsed (xs ++ ys) = (collapsed xs).foldr squeeze (collapsed ys) := by
  rw [foldr_collapsed]
  exact List.foldr_append

/-- Two pieces with one list of parameters whose texts differ in the number of blanks only. -/
structure Predicate.SameButBlanks (p q : Predicate) : Prop where
  parameters : p.parameters = q.parameters
  text : collapsed p.text.toList = collapsed q.text.toList

namespace Predicate

variable {p q p' q' r : Predicate}

theorem SameButBlanks.refl (p : Predicate) : p.SameButBlanks p := ⟨rfl, rfl⟩

theorem SameButBlanks.symm (h : p.SameButBlanks q) : q.SameButBlanks p :=
  ⟨h.parameters.symm, h.text.symm⟩

theorem SameButBlanks.trans (h : p.SameButBlanks q) (h' : q.SameButBlanks r) :
    p.SameButBlanks r :=
  ⟨h.parameters.trans h'.parameters, h.text.trans h'.text⟩

theorem SameButBlanks.followedBy (h : p.SameButBlanks q) (k : Connective) :
    (p.followedBy k).SameButBlanks (q.followedBy k) := by
  refine ⟨h.parameters, ?_⟩
  simp only [Predicate.followedBy, String.toList_append, List.append_assoc]
  rw [collapsed_append, h.text, ← collapsed_append]

theorem SameButBlanks.group (left : p.SameButBlanks q) (right : p'.SameButBlanks q') :
    (p.group p').SameButBlanks (q.group q') := by
  have inside : collapsed (p.text.toList ++ p'.text.toList) =
      collapsed (q.text.toList ++ q'.text.toList) := by
    rw [collapsed_append, left.text, right.text, ← collapsed_append]
  constructor
  · show p.parameters ++ p'.parameters = q.parameters ++ q'.parameters
    rw [left.parameters, right.parameters]
  · simp only [Predicate.group, String.toList_append, List.append_assoc]
    rw [← List.append_assoc p.text.toList, ← List.append_assoc q.text.toList, collapsed_append,
      collapsed_append (p.text.toList ++ _), inside, ← collapsed_append, ← collapsed_append]

/-- A condition that ends with a connective, in front of a text that starts with a blank. -/
theorem group_ofCondition (column : Column) (o : Operator) (v : Option Parameter) (k : Connective)
    {cs : List Char} (blank : q.text.toList = ' ' :: cs) :
    ((ofCondition column o v k.sql).group q).SameButBlanks
      (((ofCondition column o v noConnective).followedBy k).group q) := by
  obtain ⟨front, texts⟩ : ∃ front : List Char, ∀ tail : String,
      (ofCondition column o v tail).text.toList = front ++ ' ' :: tail.toList := by
    cases v with
    | some v =>
      refine ⟨" (".toList ++ column.column.toList ++ [' '] ++ o.sql.toList ++ " ?)".toList, ?_⟩
      intro tail
      simp [ofCondition]
    | none =>
      refine ⟨" (".toList ++ column.column.toList ++ [' '] ++ o.sql.toList ++ [')'], ?_⟩
      intro tail
      simp [ofCondition]
  have parameters : ∀ tail, (ofCondition column o v tail).parameters = v.toList :=
    parameters_ofCondition column o v
  have behind : ∀ rest, collapsed (' ' :: (k.sql.toList ++ ' ' :: cs ++ rest)) =
      collapsed (' ' :: ' ' :: ' ' :: (k.sql.toList ++ ' ' :: ' ' :: cs ++ rest)) := by
    intro rest
    cases k <;> simp [collapsed, Connective.sql, squeeze_blank_of_head, head?_squeeze_blank]
  constructor
  · simp only [Predicate.group, Predicate.followedBy, parameters]
  · have same := behind " ) ".toList
    simp only [Predicate.group, Predicate.followedBy, String.toList_append, texts, blank,
      noConnective, List.append_assoc, List.cons_append]
    rw [← List.append_assoc _ front, ← List.append_assoc _ front, collapsed_append,
      collapsed_append (_ ++ front)]
    congr 1
    simpa using same

end Predicate

/-! ### The parts of a compiled filter -/

section Parts

variable {table : MappingTable} {scope : Option String} {left right : Filter} {k : Connective}

theorem Compiles.of_condition {c : Condition} {p : Predicate}
    (h : Compiles table scope (.condition c) p) :
    ∃ column v, c.Binds table scope column v ∧
      Predicate.ofCondition column c.operator v Predicate.noConnective = p := by
  cases h with
  | condition binds => exact ⟨_, _, binds, rfl⟩

/-- But for blanks, a condition on the left is joined as a group is. -/
theorem Compiles.of_logical {r : Predicate} (h : Compiles table scope (.logical left k right) r) :
    ∃ p q, Compiles table scope left p ∧ Compiles table scope right q ∧
      r.SameButBlanks ((p.followedBy k).group q) := by
  cases h with
  | leaf binds rest =>
    obtain ⟨cs, blank⟩ := rest.text_eq_cons
    exact ⟨_, _, .condition binds, rest, Predicate.group_ofCondition _ _ _ _ blank⟩
  | group _ first rest => exact ⟨_, _, first, rest, .refl _⟩

theorem exists_compiles_logical :
    (∃ r, Compiles table scope (.logical left k right) r) ↔
      (∃ p, Compiles table scope left p) ∧ ∃ q, Compiles table scope right q := by
  constructor
  · rintro ⟨r, compiles⟩
    obtain ⟨p, q, first, rest, _⟩ := compiles.of_logical
    exact ⟨⟨p, first⟩, q, rest⟩
  · rintro ⟨⟨p, first⟩, q, rest⟩
    cases inner : left.condition? with
    | none => exact ⟨_, .group inner first rest⟩
    | some c =>
      obtain rfl := Filter.condition?_eq_some inner
      obtain ⟨column, v, binds, _⟩ := first.of_condition
      exact ⟨_, .leaf binds rest⟩

end Parts

/-! ### Taking value paths out -/

/-- Puts a condition on the attribute that its scope gives it, if the table has that one. -/
def Condition.flat (table : MappingTable) (scope : Option String) (c : Condition) : Condition :=
  match scope with
  | none => c
  | some name =>
    if (table.get? { name, sub := some c.path.name }).isSome then
      { c with path := { name, sub := some c.path.name } }
    else c

/-- A filter with what is in its value paths in their place. -/
def Filter.flat (table : MappingTable) (scope : Option String) : Filter → Filter
  | condition c => condition (c.flat table scope)
  | logical left k right => logical (left.flat table scope) k (right.flat table scope)
  | valuePath path inner => inner.flat table (some path.toAttribute.text)
  | negation inner => negation (inner.flat table scope)

/-- Nothing is negated, and no value path stands inside another. -/
def Filter.Simple (inside : Bool) : Filter → Prop
  | condition _ => True
  | logical left _ right => left.Simple inside ∧ right.Simple inside
  | valuePath _ inner => inside = false ∧ inner.Simple true
  | negation _ => False

theorem Condition.find?_flat (table : MappingTable) (scope : Option String) (c : Condition) :
    table.find? (c.flat table scope).path.toAttribute none =
      table.find? c.path.toAttribute scope := by
  cases scope with
  | none => rfl
  | some name =>
    unfold flat
    cases found : table.get? { name, sub := some c.path.name } with
    | none => simp [MappingTable.find?, found]
    | some column => simp [MappingTable.find?, found]

theorem Condition.operator_flat (table : MappingTable) (scope : Option String) (c : Condition) :
    (c.flat table scope).operator = c.operator ∧ (c.flat table scope).value = c.value := by
  unfold flat
  cases scope with
  | none => exact ⟨rfl, rfl⟩
  | some name =>
    dsimp only
    split <;> exact ⟨rfl, rfl⟩

/-- The path of a condition only matters to what it is refused with. -/
theorem Condition.bind_ok_congr {c d : Condition} (operator : c.operator = d.operator)
    (value : c.value = d.value) (column : Column) (p : Option Parameter) :
    c.bind column = .ok p ↔ d.bind column = .ok p := by
  unfold bind
  rw [operator, value]
  split
  · rfl
  · cases d.value with
    | none => exact ⟨nofun, nofun⟩
    | some value =>
      dsimp only
      split
      · rfl
      · split
        · rfl
        · exact ⟨nofun, nofun⟩

theorem Condition.binds_flat {table : MappingTable} {scope : Option String} {c : Condition}
    {column : Column} {p : Option Parameter} :
    (c.flat table scope).Binds table none column p ↔ c.Binds table scope column p := by
  obtain ⟨operator, value⟩ := c.operator_flat table scope
  unfold Binds
  rw [MappingTable.resolve_ok_iff, MappingTable.resolve_ok_iff, find?_flat,
    bind_ok_congr operator value]

theorem exists_compiles_flat {table : MappingTable} {scope : Option String} {f : Filter}
    (simple : f.Simple scope.isSome) :
    (∃ q, Compiles table none (f.flat table scope) q) ↔ ∃ p, Compiles table scope f p := by
  induction f generalizing scope with
  | condition c =>
    constructor
    · rintro ⟨q, compiles⟩
      obtain ⟨column, v, binds, _⟩ := compiles.of_condition
      exact ⟨_, .condition (Condition.binds_flat.mp binds)⟩
    · rintro ⟨p, compiles⟩
      obtain ⟨column, v, binds, _⟩ := compiles.of_condition
      exact ⟨_, .condition (Condition.binds_flat.mpr binds)⟩
  | logical left k right first rest =>
    rw [Filter.flat, exists_compiles_logical, exists_compiles_logical, first simple.1,
      rest simple.2]
  | valuePath path inner ih =>
    obtain ⟨outside, simple⟩ := simple
    obtain rfl : scope = none := by simpa using outside
    have inside := @ih (some path.toAttribute.text) simple
    rw [Filter.flat, inside]
    constructor
    · rintro ⟨p, compiles⟩
      exact ⟨p, .valuePath compiles⟩
    · rintro ⟨p, compiles⟩
      cases compiles with
      | valuePath within => exact ⟨p, within⟩
  | negation => exact simple.elim

theorem compiles_flat {table : MappingTable} {scope : Option String} {f : Filter}
    {p q : Predicate} (h : Compiles table scope f p)
    (h' : Compiles table none (f.flat table scope) q) : p.SameButBlanks q := by
  induction f generalizing scope p q with
  | condition c =>
    obtain ⟨column, v, binds, rfl⟩ := h.of_condition
    obtain ⟨column', v', binds', rfl⟩ := h'.of_condition
    obtain ⟨rfl, rfl⟩ := binds_unique binds (Condition.binds_flat.mp binds')
    rw [(c.operator_flat table scope).1]
    exact .refl _
  | logical left k right first rest =>
    obtain ⟨l, r, compiles, compilesRight, same⟩ := h.of_logical
    obtain ⟨l', r', compiles', compilesRight', same'⟩ := h'.of_logical
    have joined := ((first compiles compiles').followedBy k).group
      (rest compilesRight compilesRight')
    exact (same.trans joined).trans same'.symm
  | valuePath path inner ih =>
    cases h with
    | valuePath within => exact ih within h'
  | negation => cases h

theorem Filter.conditions_flat (table : MappingTable) (scope : Option String) (f : Filter) :
    (f.flat table scope).conditions none =
      (f.conditions scope).map fun e => (none, e.2.flat table e.1) := by
  induction f generalizing scope with
  | condition c => rfl
  | logical left k right first rest =>
    show (left.flat table scope).conditions none ++ (right.flat table scope).conditions none = _
    rw [first, rest, ← List.map_append]
    rfl
  | valuePath path inner ih => exact ih _
  | negation inner ih => exact ih _

/-- A filter without negations and nested value paths compiles when it does without its value paths,
to the same parameters and, but for blanks, to the same text. Each condition is looked up within its
own value path, and a condition outside of them stays as it is. -/
theorem flat_same_query {f : Filter} (simple : f.Simple false) (table : MappingTable)
    (order : SortOrder) (page : Page) (requestId : String) :
    ((∃ q, (Query.compile (some f) table order page requestId).result = .ok q) ↔
      ∃ q, (Query.compile (some (f.flat table none)) table order page requestId).result = .ok q) ∧
    (∀ q q', (Query.compile (some f) table order page requestId).result = .ok q →
      (Query.compile (some (f.flat table none)) table order page requestId).result = .ok q' →
      q.predicate.parameters = q'.predicate.parameters ∧
        collapsed q.predicate.text.toList = collapsed q'.predicate.text.toList) ∧
    (f.flat table none).conditions none =
      (f.conditions none).map fun e => (none, e.2.flat table e.1) := by
  refine ⟨?_, ?_, f.conditions_flat table none⟩
  · have compiled : ∀ g, (∃ q, (Query.compile (some g) table order page requestId).result = .ok q) ↔
        ∃ p, Compiles table none g p := by
      intro g
      simp [Query.compile_ok_iff]
    rw [compiled, compiled]
    exact (@exists_compiles_flat table none f simple).symm
  · intro q q' first second
    obtain ⟨p, compiles, rfl⟩ := Query.compile_ok_iff.mp first
    obtain ⟨p', compiles', rfl⟩ := Query.compile_ok_iff.mp second
    have same := compiles_flat compiles compiles'
    exact ⟨same.parameters, same.text⟩

/-! ### A filter with two value paths -/

/-- `(to[type co ")?"] and size ge 4) or to[id pr]`. The second condition on the right is not mapped
within its scope. -/
def nestedFilter : Filter :=
  .logical
    (.logical
      (.valuePath { name := "to" } (.condition ⟨{ name := "type" }, .co, some (.string ")?")⟩))
      .and (.condition ⟨{ name := "size" }, .ge, some (.integer 4)⟩))
    .or (.valuePath { name := "to" } (.condition ⟨{ name := "id" }, .pr, none⟩))

def nestedQuery : Query where
  predicate := ⟨" (  (  (rcp.type LIKE ?)   AND  (msg.size >= ?)   )  OR  (msg.id IS NOT NULL)   ) ",
    [.text "%)?%", .int64 4]⟩
  limit := "limit 0, 10"
  orderBy := "order by msg.id asc"

def flatQuery : Query where
  predicate := ⟨" (  (  (rcp.type LIKE ?) AND (msg.size >= ?)   )  OR  (msg.id IS NOT NULL)   ) ",
    [.text "%)?%", .int64 4]⟩
  limit := "limit 0, 10"
  orderBy := "order by msg.id asc"

theorem nestedFilter_same_query :
    nestedFilter.Simple false ∧
    (Query.compile (some nestedFilter) messages ⟨"msg.id", .asc⟩ ⟨0, 10⟩ "").result =
      .ok nestedQuery ∧
    (Query.compile (some (nestedFilter.flat messages none)) messages ⟨"msg.id", .asc⟩ ⟨0, 10⟩
      "").result = .ok flatQuery ∧
    nestedQuery.predicate.parameters = flatQuery.predicate.parameters ∧
    collapsed nestedQuery.predicate.text.toList = collapsed flatQuery.predicate.text.toList := by
  have simple : nestedFilter.Simple false := ⟨⟨⟨rfl, trivial⟩, trivial⟩, rfl, trivial⟩
  have first : (Query.compile (some nestedFilter) messages ⟨"msg.id", .asc⟩ ⟨0, 10⟩ "").result =
      .ok nestedQuery := by rfl
  have second : (Query.compile (some (nestedFilter.flat messages none)) messages ⟨"msg.id", .asc⟩
      ⟨0, 10⟩ "").result = .ok flatQuery := by rfl
  obtain ⟨_, same, _⟩ := flat_same_query simple messages ⟨"msg.id", .asc⟩ ⟨0, 10⟩ ""
  exact ⟨simple, first, second, same _ _ first second⟩

end ScimQuery
