import ScimQuery.ListRequest
import ScimQuery.Proofs.Outcome

/-!
# Successful compilations

`Compiles` says which predicate a filter becomes, with one rule for each way that a node is written.
`compile_ok_iff` shows that these are the successful runs of `Filter.compile`, and no others.
-/

namespace ScimQuery

/-- A condition is mapped to a column within a scope, and binds a parameter unless it asks for
presence. -/
def Condition.Binds (c : Condition) (table : MappingTable) (scope : Option String)
    (column : Column) (p : Option Parameter) : Prop :=
  table.resolve c.path.toAttribute scope = .ok column ∧ c.bind column = .ok p

/-- The text of a condition up to its tail. -/
def Predicate.conditionText (column : Column) (operator : Operator) : Option Parameter → String
  | some _ => " (" ++ column.column ++ " " ++ operator.sql ++ " ?) "
  | none => " (" ++ column.column ++ " " ++ operator.sql ++ ") "

theorem Predicate.text_ofCondition (column : Column) (operator : Operator) (p : Option Parameter)
    (tail : String) :
    (ofCondition column operator p tail).text = conditionText column operator p ++ tail := by
  cases p <;> rfl

@[simp] theorem parameters_ofCondition (column : Column) (o : Operator) (p : Option Parameter)
    (tail : String) : (Predicate.ofCondition column o p tail).parameters = p.toList := by
  cases p <;> rfl

inductive Compiles (table : MappingTable) : Option String → Filter → Predicate → Prop where
  | condition {scope c column p} (binds : c.Binds table scope column p) :
      Compiles table scope (.condition c)
        (.ofCondition column c.operator p Predicate.noConnective)
  /-- A condition on the left ends with the connective. -/
  | leaf {scope c column p k right q} (binds : c.Binds table scope column p)
      (rest : Compiles table scope right q) :
      Compiles table scope (.logical (.condition c) k right)
        ((Predicate.ofCondition column c.operator p k.sql).group q)
  | group {scope left p k right q} (inner : left.condition? = none)
      (first : Compiles table scope left p) (rest : Compiles table scope right q) :
      Compiles table scope (.logical left k right) ((p.followedBy k).group q)
  | valuePath {path inner p} (within : Compiles table (some path.toAttribute.text) inner p) :
      Compiles table none (.valuePath path inner) p

namespace Condition

theorem result_compile (c : Condition) (table : MappingTable) (requestId : String)
    (scope : Option String) (tail : String) :
    (c.compile table requestId scope tail).result =
      (table.resolve c.path.toAttribute scope).bind fun column =>
        (c.bind column).map fun p => Predicate.ofCondition column c.operator p tail := by
  unfold compile
  cases table.resolve c.path.toAttribute scope with
  | error e => simp [Except.bind]
  | ok column => cases h : c.bind column <;> simp [Except.bind, Except.map, h]

theorem compile_ok_iff {c : Condition} {table : MappingTable} {requestId : String}
    {scope : Option String} {tail : String} {q : Predicate} :
    (c.compile table requestId scope tail).result = .ok q ↔
      ∃ column p, c.Binds table scope column p ∧
        Predicate.ofCondition column c.operator p tail = q := by
  simp only [result_compile, except_bind_ok_iff, except_map_ok_iff, Binds, and_assoc,
    exists_and_left]

/-- Presence alone binds nothing. -/
theorem bind_presence {c : Condition} {column : Column} {p : Option Parameter}
    (h : c.bind column = .ok p) : p = none ↔ c.operator = .pr := by
  unfold bind at h
  split at h
  · next presence => simpa [presence] using h.symm
  · next comparison =>
    have bound : p ≠ none := by
      rintro rfl
      repeat' split at h
      all_goals simp at h
    simp [bound, comparison]

end Condition

namespace Filter

theorem condition?_eq_some {f : Filter} {c : Condition} (h : f.condition? = some c) :
    f = .condition c := by
  cases f <;> simp_all [condition?]

theorem result_compile_leaf (c : Condition) (k : Connective) (right : Filter)
    (table : MappingTable) (requestId : String) (scope : Option String) :
    ((logical (condition c) k right).compile table requestId scope).result =
      (c.compile table requestId scope k.sql).result.bind fun p =>
        (right.compile table requestId scope).result.map p.group := by
  rw [compile]
  simp only [condition?, Recorded.result_bind, Recorded.result_pure]
  rfl

theorem result_compile_group {left : Filter} (inner : left.condition? = none) (k : Connective)
    (right : Filter) (table : MappingTable) (requestId : String) (scope : Option String) :
    ((logical left k right).compile table requestId scope).result =
      (left.compile table requestId scope).result.bind fun p =>
        (right.compile table requestId scope).result.map (p.followedBy k).group := by
  rw [compile]
  simp only [inner, Recorded.result_bind, Recorded.result_map, Recorded.result_pure]
  cases (left.compile table requestId scope).result <;> rfl

/-- What a compiled filter becomes on the left of a connective. A condition has the connective in
the place of its last blank. -/
def lead (left : Filter) (k : Connective) (p : Predicate) : Predicate :=
  match left with
  | condition _ => { p with text := String.ofList p.text.toList.dropLast ++ k.sql }
  | _ => p.followedBy k

theorem lead_condition (c : Condition) (column : Column) (v : Option Parameter) (k : Connective) :
    (condition c).lead k (.ofCondition column c.operator v Predicate.noConnective) =
      .ofCondition column c.operator v k.sql := by
  have front : (Predicate.conditionText column c.operator v ++
      Predicate.noConnective).toList.dropLast =
        (Predicate.conditionText column c.operator v).toList := by
    simp [Predicate.noConnective]
  rw [lead, Predicate.text_ofCondition, front, String.ofList_toList, ← Predicate.text_ofCondition,
    parameters_ofCondition, ← parameters_ofCondition column c.operator v k.sql]

theorem lead_group {left : Filter} (inner : left.condition? = none) (k : Connective)
    (p : Predicate) : left.lead k p = p.followedBy k := by
  cases left with
  | condition => cases inner
  | _ => rfl

/-- A group is compiled from its operands as they are on their own. -/
theorem result_compile_logical (left right : Filter) (k : Connective) (table : MappingTable)
    (requestId : String) (scope : Option String) :
    ((logical left k right).compile table requestId scope).result =
      (left.compile table requestId scope).result.bind fun p =>
        (right.compile table requestId scope).result.map (left.lead k p).group := by
  cases inner : left.condition? with
  | some c =>
    obtain rfl := condition?_eq_some inner
    rw [result_compile_leaf, compile, Condition.result_compile, Condition.result_compile]
    cases table.resolve c.path.toAttribute scope with
    | error e => simp only [Except.bind]
    | ok column =>
      dsimp only [Except.bind]
      cases c.bind column with
      | error e => simp only [Except.map]
      | ok v => simp only [Except.map, lead_condition]
  | none => simp only [result_compile_group inner, lead_group inner]

theorem compile_of_compiles {table : MappingTable} {scope : Option String} {f : Filter}
    {p : Predicate} (h : Compiles table scope f p) (requestId : String) :
    (f.compile table requestId scope).result = .ok p := by
  induction h with
  | condition binds => exact Condition.compile_ok_iff.mpr ⟨_, _, binds, rfl⟩
  | leaf binds _ rest =>
    rw [result_compile_leaf, Condition.compile_ok_iff.mpr ⟨_, _, binds, rfl⟩, rest]
    rfl
  | group inner _ _ first rest =>
    rw [result_compile_group inner, first, rest]
    rfl
  | valuePath _ ih => exact ih

/-- The runs that succeed are those that the rules allow. -/
theorem compile_ok_iff {table : MappingTable} {requestId : String} {scope : Option String}
    {f : Filter} {p : Predicate} :
    (f.compile table requestId scope).result = .ok p ↔ Compiles table scope f p := by
  refine ⟨fun h => ?_, fun h => compile_of_compiles h requestId⟩
  induction f generalizing scope p with
  | condition c =>
    obtain ⟨column, v, binds, rfl⟩ := Condition.compile_ok_iff.mp h
    exact .condition binds
  | logical left k right first rest =>
    cases inner : left.condition? with
    | some c =>
      obtain rfl := condition?_eq_some inner
      simp only [result_compile_leaf, except_bind_ok_iff, except_map_ok_iff] at h
      obtain ⟨l, compiled, q, rest', rfl⟩ := h
      obtain ⟨column, v, binds, rfl⟩ := Condition.compile_ok_iff.mp compiled
      exact .leaf binds (rest rest')
    | none =>
      simp only [result_compile_group inner, except_bind_ok_iff, except_map_ok_iff] at h
      obtain ⟨l, first', q, rest', rfl⟩ := h
      exact .group inner (first first') (rest rest')
  | valuePath path inner ih =>
    cases scope with
    | none => exact .valuePath (ih h)
    | some _ => simp [compile] at h
  | negation => simp [compile] at h

end Filter

/-! ### The conditions of a filter -/

/-- The conditions of a filter from left to right, each with the scope it stands in. -/
def Filter.conditions (scope : Option String) : Filter → List (Option String × Condition)
  | condition c => [(scope, c)]
  | logical left _ right => left.conditions scope ++ right.conditions scope
  | valuePath path inner => inner.conditions (some path.toAttribute.text)
  | negation inner => inner.conditions scope

/-- All that a compilation takes from a table is what its conditions stand on. -/
theorem Filter.result_compile_congr {f : Filter} {t u : MappingTable} {scope : Option String}
    (same : ∀ e ∈ f.conditions scope,
      t.resolve e.2.path.toAttribute e.1 = u.resolve e.2.path.toAttribute e.1)
    (requestId requestId' : String) :
    (f.compile t requestId scope).result = (f.compile u requestId' scope).result := by
  induction f generalizing scope with
  | condition c =>
    have leaf := same (scope, c) List.mem_cons_self
    rw [compile, compile, Condition.result_compile, Condition.result_compile, leaf]
  | logical left k right first rest =>
    obtain ⟨sameLeft, sameRight⟩ := List.forall_mem_append.mp same
    rw [result_compile_logical, result_compile_logical, first sameLeft, rest sameRight]
  | valuePath path inner ih =>
    cases scope with
    | none => exact ih same
    | some _ => rfl
  | negation => rfl

theorem Compiles.resolved {table : MappingTable} {scope : Option String} {f : Filter}
    {p : Predicate} (h : Compiles table scope f p) :
    ∀ e ∈ f.conditions scope, ∃ column, table.resolve e.2.path.toAttribute e.1 = .ok column := by
  induction h with
  | condition binds =>
    intro e member
    obtain rfl := List.mem_singleton.mp member
    exact ⟨_, binds.1⟩
  | leaf binds _ rest =>
    intro e member
    rcases List.mem_cons.mp member with rfl | later
    · exact ⟨_, binds.1⟩
    · exact rest e later
  | group _ _ _ first rest => exact List.forall_mem_append.mpr ⟨first, rest⟩
  | valuePath _ ih => exact ih

/-! ### Texts and queries -/

/-- Every predicate starts with a blank, so none is empty. -/
theorem Compiles.text_eq_cons {table : MappingTable} {scope : Option String} {f : Filter}
    {p : Predicate} (h : Compiles table scope f p) : ∃ cs, p.text.toList = ' ' :: cs := by
  induction h with
  | @condition scope c column p =>
    cases p <;> simp [Predicate.ofCondition]
  | leaf | group => simp [Predicate.group]
  | valuePath _ ih => exact ih

theorem Query.result_compile (f : Filter) (table : MappingTable) (order : SortOrder) (page : Page)
    (requestId : String) :
    (Query.compile (some f) table order page requestId).result =
      (f.compile table requestId none).result.map fun p => ⟨p, page.sql, order.sql⟩ := by
  simp only [Query.compile, Recorded.result_bind, Recorded.result_log]
  cases (f.compile table requestId none).result <;> rfl

theorem Query.compile_ok_iff {f : Filter} {table : MappingTable} {order : SortOrder} {page : Page}
    {requestId : String} {q : Query} :
    (Query.compile (some f) table order page requestId).result = .ok q ↔
      ∃ p, Compiles table none f p ∧ ⟨p, page.sql, order.sql⟩ = q := by
  simp [Query.result_compile, Filter.compile_ok_iff]

end ScimQuery
