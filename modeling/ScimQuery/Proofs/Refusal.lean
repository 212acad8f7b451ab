import ScimQuery.Proofs.Compilation

/-!
# Refused filters

Which filters are refused, and with what. The items of a filter are what a compilation can stop at,
from left to right; `first_failure_decides` shows that the first item that fails gives the error.
-/

namespace ScimQuery

/-! ### The failure of a condition -/

/-- The values that a column of a type can be compared with. -/
def ColumnType.fits : ColumnType → Scalar → Bool
  | .int, .integer n => -2147483648 ≤ n.toInt && n.toInt ≤ 2147483647
  | .int64, .integer _ => true
  | .bool, .bool _ => true
  | .string, _ => true
  | _, _ => false

/-- The operators that look for a part of a text. -/
def Operator.patterns : List Operator := [.co, .sw, .ew]

theorem Operator.wildcards_isSome {o : Operator} : o.wildcards.isSome ↔ o ∈ patterns := by
  cases o <;> simp [wildcards, patterns]

theorem Parameter.coerce?_isSome (declared : ColumnType) (value : Scalar) :
    (coerce? declared value).isSome = declared.fits value := by
  cases declared with
  | int =>
    cases value with
    | integer n =>
      have least : Int32.minValue.toInt = -2147483648 := by decide
      have greatest : Int32.maxValue.toInt = 2147483647 := by decide
      rw [coerce?, ColumnType.fits, least, greatest]
      split
      · next within => simp [within]
      · next outside => simp [outside]
    | _ => rfl
  | _ => cases value <;> rfl

/-- The keys that stand for the attribute of a condition, the one of its scope first. -/
def Condition.keys (c : Condition) (scope : Option String) : List Attribute :=
  (scope.map fun name => { name, sub := some c.path.name }).toList ++ [c.path.toAttribute]

theorem MappingTable.find?_eq_findSome? (t : MappingTable) (c : Condition)
    (scope : Option String) :
    t.find? c.path.toAttribute scope = (c.keys scope).findSome? t.get? := by
  cases scope with
  | none => simp [find?, Condition.keys]
  | some name =>
    simp only [find?, Condition.keys, Option.bind_some, Option.map_some, Option.toList_some,
      List.singleton_append, List.findSome?_cons, List.findSome?_nil]
    cases t.get? { name, sub := some c.path.name } <;> cases t.get? c.path.toAttribute <;> rfl

/-- What a condition on a column fails with: no value, or one that the column does not take. -/
def Condition.valueFailure? (c : Condition) (column : Column) : Option CompileError :=
  if c.operator = .pr then none
  else
    match c.value with
    | none => some (.missingValue c.path.toAttribute.text c.operator)
    | some value =>
      if c.operator ∈ Operator.patterns ∨ column.type.fits value then none
      else some (.coercion c.path.toAttribute.text column.type value)

/-- A condition on an attribute without a column fails for that alone. -/
def Condition.failure? (c : Condition) (table : MappingTable) (scope : Option String) :
    Option CompileError :=
  match (c.keys scope).findSome? table.get? with
  | none => some (.unmapped (MappingTable.shown c.path.toAttribute scope))
  | some column => c.valueFailure? column

theorem Condition.failureOf?_bind (c : Condition) (column : Column) :
    failureOf? (c.bind column) = c.valueFailure? column := by
  unfold bind valueFailure?
  split
  · rfl
  · cases c.value with
    | none => rfl
    | some value =>
      cases wild : c.operator.wildcards with
      | some around =>
        have pattern : c.operator ∈ Operator.patterns := by
          rw [← Operator.wildcards_isSome, wild]
          rfl
        simp [pattern, failureOf?]
      | none =>
        have plain : c.operator ∉ Operator.patterns := by
          rw [← Operator.wildcards_isSome, wild]
          simp
        cases coerced : Parameter.coerce? column.type value with
        | some p =>
          have fits : column.type.fits value = true := by
            rw [← Parameter.coerce?_isSome, coerced]
            rfl
          simp [coerced, fits, failureOf?]
        | none =>
          have misfit : column.type.fits value = false := by
            rw [← Parameter.coerce?_isSome, coerced]
            rfl
          simp [coerced, plain, misfit, failureOf?]

theorem Condition.failureOf?_compile (c : Condition) (table : MappingTable) (requestId : String)
    (scope : Option String) (tail : String) :
    failureOf? (c.compile table requestId scope tail).result = c.failure? table scope := by
  rw [result_compile, MappingTable.resolve, MappingTable.find?_eq_findSome?, failure?]
  cases (c.keys scope).findSome? table.get? with
  | none => rfl
  | some column =>
    rw [Except.bind, failureOf?_map]
    exact failureOf?_bind c column

/-! ### The first failure of a filter -/

inductive Item where
  | condition (scope : Option String) (c : Condition)
  /-- A node that no predicate is made from. -/
  | refused (kind : NodeKind)

def Item.failure? (table : MappingTable) : Item → Option CompileError
  | condition scope c => c.failure? table scope
  | refused kind => some (.unsupported kind)

/-- The items of a filter from left to right. Refused nodes are not entered. -/
def Filter.items (scope : Option String) : Filter → List Item
  | condition c => [.condition scope c]
  | logical left _ right => left.items scope ++ right.items scope
  | valuePath path inner =>
    match scope with
    | none => inner.items (some path.toAttribute.text)
    | some _ => [.refused .valuePath]
  | negation _ => [.refused .negation]

theorem Filter.failureOf?_compile (f : Filter) (table : MappingTable) (requestId : String)
    (scope : Option String) :
    failureOf? (f.compile table requestId scope).result =
      (f.items scope).findSome? (Item.failure? table) := by
  induction f generalizing scope with
  | condition c =>
    have failure := c.failureOf?_compile table requestId scope Predicate.noConnective
    simpa [compile, items, Item.failure?] using failure
  | logical left k right first rest =>
    rw [items, List.findSome?_append, ← first, ← rest, result_compile_logical,
      failureOf?_bind_map]
  | valuePath path inner ih =>
    cases scope with
    | none => exact ih _
    | some _ => rfl
  | negation => rfl

/-- The items of a request without a filter are none. -/
def itemsOf (filter : Option Filter) : List Item := filter.toList.flatMap (Filter.items none)

theorem Query.failureOf?_compile (filter : Option Filter) (table : MappingTable)
    (order : SortOrder) (page : Page) (requestId : String) :
    failureOf? (Query.compile filter table order page requestId).result =
      (itemsOf filter).findSome? (Item.failure? table) := by
  cases filter with
  | none => rfl
  | some f =>
    have items : itemsOf (some f) = f.items none := by simp [itemsOf]
    rw [items, ← f.failureOf?_compile table requestId none, Query.result_compile, failureOf?_map]

/-- An item fails, and none before it does. -/
def FirstFails (table : MappingTable) (items : List Item) (e : CompileError) : Prop :=
  ∃ before item behind, items = before ++ item :: behind ∧ item.failure? table = some e ∧
    ∀ i ∈ before, i.failure? table = none

theorem ListRequest.result_compile (r : ListRequest) (table : MappingTable)
    (column direction : String) :
    (r.compile table column direction).result =
      match Direction.all.find? (·.name = direction.map Char.toLower) with
      | some d => (Query.compile r.filter table ⟨column, d⟩ r.page "").result
      | none => .error (.invalidDirection direction) := by
  unfold compile SortOrder.parse Direction.parse
  split
  · next asc => simp [asc, Direction.all, Direction.name, Except.map, Except.bind]
  · next desc => simp [desc, Direction.all, Direction.name, Except.map, Except.bind]
  · next notAsc notDesc =>
    have unnamed : Direction.all.find? (·.name = direction.map Char.toLower) = none := by
      simp [Direction.all, Direction.name, Ne.symm notAsc, Ne.symm notDesc]
    rw [unnamed]
    rfl

/-- A filter compiles when none of its items fails; else the first failure is the error. A request
is compiled in the same way once its direction is read. -/
theorem first_failure_decides (filter : Option Filter) (table : MappingTable) (order : SortOrder)
    (page : Page) (requestId : String) (r : ListRequest) (column direction : String) :
    ((∃ q, (Query.compile filter table order page requestId).result = .ok q) ↔
      ∀ i ∈ itemsOf filter, i.failure? table = none) ∧
    (∀ e, (Query.compile filter table order page requestId).result = .error e ↔
      FirstFails table (itemsOf filter) e) ∧
    (r.compile table column direction).result =
      match Direction.all.find? (·.name = direction.map Char.toLower) with
      | some d => (Query.compile r.filter table ⟨column, d⟩ r.page "").result
      | none => .error (.invalidDirection direction) := by
  have failure := Query.failureOf?_compile filter table order page requestId
  refine ⟨?_, fun e => ?_, r.result_compile table column direction⟩
  · rw [← failureOf?_eq_none, failure, List.findSome?_eq_none_iff]
  · rw [← failureOf?_eq_some, failure, List.findSome?_eq_some_iff]
    rfl

end ScimQuery
