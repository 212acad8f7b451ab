import Mathlib.Algebra.Group.Int.Defs
import Mathlib.Data.List.Forall2
import ScimQuery.Proofs.Meaning

/-!
# Bound parameters

A compiled filter binds one parameter for each condition that compares with a value, from left to
right, and none for the others (`compile_binds_comparisons`). Patterns bind a text; all other
comparisons bind a parameter that carries just the value.
-/

namespace ScimQuery

/-! ### The parameter of a value -/

/-- The parameter that carries a value to a column of a type, without loss. -/
inductive Parameter.Carries : ColumnType → Scalar → Parameter → Prop where
  | int {n : Int64} {m : Int32} (least : -2 ^ 31 ≤ n.toInt) (greatest : n.toInt < 2 ^ 31)
      (same : m.toInt = n.toInt) : Carries .int (.integer n) (.int m)
  | int64 (n : Int64) : Carries .int64 (.integer n) (.int64 n)
  | bool (b : Bool) : Carries .bool (.bool b) (.bool b)
  | stringBool (b : Bool) : Carries .string (.bool b) (.bool b)
  | stringInteger (n : Int64) : Carries .string (.integer n) (.int64 n)
  | stringDecimal (x : Float) : Carries .string (.decimal x) (.float x)
  | stringText (s : String) : Carries .string (.string s) (.text s)
  | stringNull : Carries .string .null .null

/-- The parameter that an operator binds for a value on a column of a type. -/
inductive Operator.Binds : Operator → ColumnType → Scalar → Parameter → Prop where
  | co (type value) : Binds .co type value (.text ("%" ++ value.text ++ "%"))
  | sw (type value) : Binds .sw type value (.text (value.text ++ "%"))
  | ew (type value) : Binds .ew type value (.text ("%" ++ value.text))
  | compare {o type value p} (compared : o ∈ [eq, ne, gt, ge, lt, le])
      (carried : Parameter.Carries type value p) : Binds o type value p

theorem toInt_toInt32_of_short {n : Int64} (short : -2 ^ 31 ≤ n.toInt ∧ n.toInt ≤ 2 ^ 31 - 1) :
    n.toInt32.toInt = n.toInt := by
  rw [Int64.toInt_toInt32, Int.bmod_eq_of_le] <;> omega

theorem Parameter.coerce?_int (n : Int64) :
    coerce? .int (.integer n) =
      if -2 ^ 31 ≤ n.toInt ∧ n.toInt ≤ 2 ^ 31 - 1 then some (.int n.toInt32) else none := by
  have least : Int32.minValue.toInt = -2 ^ 31 := by decide
  have greatest : Int32.maxValue.toInt = 2 ^ 31 - 1 := by decide
  simp only [coerce?, least, greatest, Bool.and_eq_true, decide_eq_true_eq]

theorem Parameter.carries_of_coerce? {type : ColumnType} {value : Scalar} {p : Parameter}
    (h : coerce? type value = some p) : Carries type value p := by
  unfold coerce? at h
  split at h
  · next n =>
    change coerce? .int (.integer n) = some p at h
    rw [coerce?_int] at h
    split at h
    · next short =>
      obtain rfl := Option.some.inj h
      exact .int short.1 (Int.lt_of_le_sub_one short.2) (toInt_toInt32_of_short short)
    · cases h
  · next n =>
    obtain rfl := Option.some.inj h
    exact .int64 n
  · next b =>
    obtain rfl := Option.some.inj h
    exact .bool b
  · obtain rfl := Option.some.inj h
    cases value with
    | bool b => exact .stringBool b
    | integer n => exact .stringInteger n
    | decimal x => exact .stringDecimal x
    | string s => exact .stringText s
    | null => exact .stringNull
  · cases h

theorem Operator.binds_of_wildcards {o : Operator} {before behind : String} (type : ColumnType)
    (value : Scalar) (h : o.wildcards = some (before, behind)) :
    o.Binds type value (.text (before ++ value.text ++ behind)) := by
  cases o with
  | co =>
    obtain ⟨rfl, rfl⟩ := Prod.mk.inj (Option.some.inj h)
    exact .co type value
  | sw =>
    obtain ⟨rfl, rfl⟩ := Prod.mk.inj (Option.some.inj h)
    simpa using Binds.sw type value
  | ew =>
    obtain ⟨rfl, rfl⟩ := Prod.mk.inj (Option.some.inj h)
    simpa using Binds.ew type value
  | _ => cases h

theorem Operator.compared_of_wildcards {o : Operator} (comparison : o ≠ .pr)
    (plain : o.wildcards = none) : o ∈ [eq, ne, gt, ge, lt, le] := by
  cases o <;> simp_all [wildcards]

/-- What a condition binds on a column is made from its value. -/
theorem Condition.bind_binds {c : Condition} {column : Column} {p : Parameter}
    (h : c.bind column = .ok (some p)) :
    ∃ value, c.value = some value ∧ c.operator.Binds column.type value p := by
  unfold bind at h
  split at h
  · cases h
  · next comparison =>
    split at h
    · cases h
    · next value given =>
      refine ⟨value, given, ?_⟩
      split at h
      · next before behind wild =>
        obtain rfl := Option.some.inj (Except.ok.inj h)
        exact Operator.binds_of_wildcards column.type value wild
      · next plain =>
        split at h
        · next q coerced =>
          obtain rfl := Option.some.inj (Except.ok.inj h)
          exact .compare (Operator.compared_of_wildcards comparison plain)
            (Parameter.carries_of_coerce? coerced)
        · cases h

/-! ### The parameters of a filter -/

/-- The conditions that compare with a value. -/
def Filter.comparisons (f : Filter) (scope : Option String) : List (Option String × Condition) :=
  (f.conditions scope).filter fun e => e.2.operator ≠ .pr

/-- A parameter is what a condition binds within its scope. -/
def BoundFrom (table : MappingTable) (e : Option String × Condition) (p : Parameter) : Prop :=
  ∃ column value, table.resolve e.2.path.toAttribute e.1 = .ok column ∧
    e.2.value = some value ∧ e.2.operator.Binds column.type value p

theorem Filter.comparisons_logical (left right : Filter) (k : Connective) (scope : Option String) :
    (logical left k right).comparisons scope =
      left.comparisons scope ++ right.comparisons scope := by
  simp [comparisons, conditions]

theorem Condition.Binds.parameters {c : Condition} {table : MappingTable} {scope : Option String}
    {column : Column} {p : Option Parameter} (binds : c.Binds table scope column p)
    (tail : String) :
    List.Forall₂ (BoundFrom table) ((Filter.condition c).comparisons scope)
      (Predicate.ofCondition column c.operator p tail).parameters := by
  obtain ⟨resolved, bound⟩ := binds
  have presence := Condition.bind_presence bound
  cases p with
  | none =>
    have none : (Filter.condition c).comparisons scope = [] := by
      simp [Filter.comparisons, Filter.conditions, presence.mp rfl]
    rw [none]
    exact .nil
  | some p =>
    have comparison : c.operator ≠ .pr := fun same => by simpa using presence.mpr same
    have one : (Filter.condition c).comparisons scope = [(scope, c)] := by
      simp [Filter.comparisons, Filter.conditions, comparison]
    obtain ⟨value, given, binds⟩ := Condition.bind_binds bound
    rw [one]
    exact .cons ⟨column, value, resolved, given, binds⟩ .nil

theorem Compiles.parameters {table : MappingTable} {scope : Option String} {f : Filter}
    {p : Predicate} (h : Compiles table scope f p) :
    List.Forall₂ (BoundFrom table) (f.comparisons scope) p.parameters := by
  induction h with
  | condition binds => exact binds.parameters _
  | leaf binds _ rest =>
    rw [Filter.comparisons_logical]
    exact List.rel_append (binds.parameters _) rest
  | group _ _ _ first rest =>
    rw [Filter.comparisons_logical]
    exact List.rel_append first rest
  | valuePath _ ih => exact ih

/-- The parameters of a compiled filter are what its comparisons bind, one for each, from left to
right. -/
theorem compile_binds_comparisons {f : Filter} {table : MappingTable} {order : SortOrder}
    {page : Page} {requestId : String} {q : Query}
    (compiled : (Query.compile (some f) table order page requestId).result = .ok q) :
    List.Forall₂ (BoundFrom table) (f.comparisons none) q.predicate.parameters := by
  obtain ⟨p, compiles, rfl⟩ := Query.compile_ok_iff.mp compiled
  exact compiles.parameters

/-! ### A filter with values of several types -/

/-- `id le -2147483648 and to[type ew true or (id pr and type ne null)]`. -/
def boundFilter : Filter :=
  .logical (.condition ⟨{ name := "id" }, .le, some (.integer (-2147483648))⟩) .and
    (.valuePath { name := "to" }
      (.logical (.condition ⟨{ name := "type" }, .ew, some (.bool true)⟩) .or
        (.logical (.condition ⟨{ name := "id" }, .pr, none⟩) .and
          (.condition ⟨{ name := "type" }, .ne, some .null⟩))))

def boundQuery : Query where
  predicate := ⟨" (  (msg.id <= ?) AND (  (rcp.type LIKE ?) OR (  (msg.id IS NOT NULL) AND"
    ++ " (rcp.type != ?)   )  )  ) ", [.int (-2147483648), .text "%true", .null]⟩
  limit := "limit 0, 10"
  orderBy := "order by msg.id asc"

theorem boundFilter_binds_comparisons :
    (Query.compile (some boundFilter) messages ⟨"msg.id", .asc⟩ ⟨0, 10⟩ "").result =
      .ok boundQuery ∧
    List.Forall₂ (BoundFrom messages) (boundFilter.comparisons none)
      boundQuery.predicate.parameters :=
  have compiled : (Query.compile (some boundFilter) messages ⟨"msg.id", .asc⟩ ⟨0, 10⟩ "").result =
      .ok boundQuery := by rfl
  ⟨compiled, compile_binds_comparisons compiled⟩

end ScimQuery
