import ScimQuery.Proofs.Binding
import ScimQuery.Proofs.ReadFilter
import ScimQuery.Proofs.Refusal

/-!
# Two ways of delivery

A filter can be handed over as a tree or as the JSON text of that tree. Both ways give one query,
unless a condition compares with null, which is read back as no value: then the text is always
refused (`delivered_compile`), though the tree may compile (`nullFilter_delivered`).
-/

namespace ScimQuery

/-! ### Compiling what was read back -/

section Compiling

variable {table : MappingTable} {requestId : String}

theorem Condition.bind_normal {c : Condition}
    (kept : c.operator ≠ .pr → ∀ s, c.value = some s → s.isKept = true) (column : Column) :
    c.normal.bind column = c.bind column := by
  by_cases presence : c.operator = .pr
  · rw [bind, bind, if_pos presence]
    exact if_pos presence
  · have same : c.normal = c := by
      unfold normal
      cases given : c.value with
      | none => rw [Option.filter_none, ← given]
      | some s => rw [Option.filter_some_pos (kept presence s given), ← given]
    rw [same]

theorem Condition.compile_normal {c : Condition}
    (kept : c.operator ≠ .pr → ∀ s, c.value = some s → s.isKept = true) (scope : Option String)
    (tail : String) :
    c.normal.compile table requestId scope tail = c.compile table requestId scope tail := by
  unfold compile
  simp only [bind_normal kept]
  rfl

theorem Filter.condition?_normal (f : Filter) :
    f.normal.condition? = f.condition?.map Condition.normal := by
  cases f <;> rfl

theorem Filter.compile_normal {f : Filter} {within : Option String}
    (kept : ∀ e ∈ f.comparisons within, ∀ s, e.2.value = some s → s.isKept = true)
    (scope : Option String) :
    f.normal.compile table requestId scope = f.compile table requestId scope := by
  -- The scope only labels the comparisons: it need not be the one that is compiled in.
  have keptCondition : ∀ c within,
      (∀ e ∈ (condition c).comparisons within, ∀ s, e.2.value = some s → s.isKept = true) →
      c.operator ≠ .pr → ∀ s, c.value = some s → s.isKept = true := by
    intro c within kept comparison
    refine kept (within, c) ?_
    simp [comparisons, conditions, comparison]
  induction f generalizing within scope with
  | condition c => exact Condition.compile_normal (keptCondition c within kept) scope _
  | logical left connective right ihLeft ihRight =>
    rw [comparisons_logical] at kept
    obtain ⟨keptLeft, keptRight⟩ := List.forall_mem_append.mp kept
    rw [normal, Filter.compile, Filter.compile, ihLeft keptLeft, ihRight keptRight,
      condition?_normal]
    cases inner : left.condition? with
    | none => rfl
    | some c =>
      obtain rfl := condition?_eq_some inner
      have same := @Condition.compile_normal table requestId c (keptCondition c within keptLeft)
        scope connective.sql
      simp only [Option.map_some, same]
  | valuePath path inner ih =>
    cases scope with
    | none => exact @ih (some path.toAttribute.text) kept _
    | some name => rfl
  | negation inner ih => rfl

theorem Query.compile_normal {f : Filter}
    (kept : ∀ e ∈ f.comparisons none, ∀ s, e.2.value = some s → s.isKept = true)
    (table : MappingTable) (order : SortOrder) (page : Page) (requestId : String) :
    compile (some f.normal) table order page requestId =
      compile (some f) table order page requestId := by
  have kind : f.normal.kind = f.kind := by cases f <;> rfl
  simp only [compile, kind, Filter.compile_normal kept]

/-! ### Comparisons without a value -/

theorem Filter.comparisons_normal (f : Filter) (scope : Option String) :
    f.normal.comparisons scope = (f.comparisons scope).map fun e => (e.1, e.2.normal) := by
  induction f generalizing scope with
  | condition c =>
    by_cases presence : c.operator = .pr <;>
      simp [normal, comparisons, conditions, Condition.normal, presence]
  | logical left connective right ihLeft ihRight =>
    rw [normal, comparisons_logical, comparisons_logical, ihLeft, ihRight, List.map_append]
  | valuePath path inner ih => exact ih _
  | negation inner ih => exact ih _

theorem compile_ne_ok_of_valueless {f : Filter} {e : Option String × Condition}
    (member : e ∈ f.comparisons none) (valueless : e.2.value = none) (table : MappingTable)
    (order : SortOrder) (page : Page) (requestId : String) (q : Query) :
    (Query.compile (some f) table order page requestId).result ≠ .ok q := by
  intro compiled
  obtain ⟨p, compiles, _⟩ := Query.compile_ok_iff.mp compiled
  obtain ⟨i, small, rfl⟩ := List.getElem_of_mem member
  have bound := compiles.parameters
  have same := bound.length_eq
  obtain ⟨column, value, _, given, _⟩ := bound.get small (same ▸ small)
  rw [List.get_eq_getElem, valueless] at given
  cases given

/-! ### The first failure of what was read back -/

theorem Filter.value_mem_values {f : Filter} {scope : Option String}
    {e : Option String × Condition} (member : e ∈ f.comparisons scope) : e.2.value ∈ f.values := by
  induction f generalizing scope with
  | condition c =>
    obtain rfl := List.mem_singleton.mp (List.mem_filter.mp member).1
    exact List.mem_singleton.mpr rfl
  | logical left connective right ihLeft ihRight =>
    rw [comparisons_logical, List.mem_append] at member
    rcases member with first | second
    · exact List.mem_append_left _ (ihLeft first)
    · exact List.mem_append_right _ (ihRight second)
  | valuePath path inner ih => exact ih member
  | negation inner ih => exact ih member

theorem Condition.failure?_normal {c : Condition}
    (kept : c.operator ≠ .pr → ∀ s, c.value = some s → s.isKept = true)
    (scope : Option String) : c.normal.failure? table scope = c.failure? table scope := by
  have keys : c.normal.keys scope = c.keys scope := rfl
  unfold failure?
  rw [keys]
  cases (c.keys scope).findSome? table.get? with
  | none => rfl
  | some column =>
    change c.normal.valueFailure? column = c.valueFailure? column
    rw [← failureOf?_bind, ← failureOf?_bind, bind_normal kept]

/-- A null that was read back is a missing value, unless its attribute has no column. -/
theorem Condition.failure?_null {c : Condition} (comparison : c.operator ≠ .pr)
    (null : c.value = some .null) (scope : Option String) :
    c.normal.failure? table scope = c.failure? table scope ∨
      c.normal.failure? table scope = some (.missingValue c.path.toAttribute.text c.operator) := by
  have keys : c.normal.keys scope = c.keys scope := rfl
  unfold failure?
  rw [keys]
  cases (c.keys scope).findSome? table.get? with
  | none => exact .inl rfl
  | some column =>
    have valueless : c.normal.value = none := by
      rw [normal, null]
      rfl
    refine .inr ?_
    change c.normal.valueFailure? column = _
    rw [valueFailure?, valueless]
    exact if_neg comparison

def Item.normal : Item → Item
  | condition scope c => condition scope c.normal
  | refused kind => refused kind

theorem Filter.items_normal (f : Filter) (scope : Option String) :
    f.normal.items scope = (f.items scope).map Item.normal := by
  induction f generalizing scope with
  | condition c => rfl
  | logical left connective right ihLeft ihRight =>
    rw [normal, items, items, ihLeft, ihRight, List.map_append]
  | valuePath path inner ih =>
    cases scope with
    | none => exact ih _
    | some name => rfl
  | negation inner ih => rfl

theorem Filter.mem_conditions_of_mem_items {f : Filter} {within scope : Option String}
    {c : Condition} (member : Item.condition scope c ∈ f.items within) :
    (scope, c) ∈ f.conditions within := by
  induction f generalizing within with
  | condition c' =>
    obtain ⟨rfl, rfl⟩ := Item.condition.inj (List.mem_singleton.mp member)
    exact List.mem_singleton.mpr rfl
  | logical left connective right ihLeft ihRight =>
    rcases List.mem_append.mp member with first | second
    · exact List.mem_append_left _ (ihLeft first)
    · exact List.mem_append_right _ (ihRight second)
  | valuePath path inner ih =>
    cases within with
    | none => exact ih member
    | some name => cases List.mem_singleton.mp member
  | negation inner ih => cases List.mem_singleton.mp member

/-- The condition stands in the filter and compares with null. -/
def Filter.NullAt (f : Filter) (c : Condition) : Prop :=
  c.value = some .null ∧ ∃ scope, (scope, c) ∈ f.comparisons none

theorem Filter.isKept_of_comparison {f : Filter} {scope : Option String}
    (finite : ∀ x, some (.decimal x) ∈ f.values → x.isFinite = true)
    {e : Option String × Condition} (member : e ∈ f.comparisons scope)
    (unnull : e.2.value ≠ some .null) : ∀ s, e.2.value = some s → s.isKept = true := by
  intro s given
  cases s with
  | null => exact absurd given unnull
  | decimal x => exact finite x (given ▸ value_mem_values member)
  | bool | integer | string => rfl

/-- What was read back fails where the tree does, or at a comparison with null. -/
theorem Item.failure?_normal {f : Filter}
    (finite : ∀ x, some (.decimal x) ∈ f.values → x.isFinite = true) {i : Item}
    (member : i ∈ f.items none) :
    i.normal.failure? table = i.failure? table ∨
      ∃ c, f.NullAt c ∧
        i.normal.failure? table = some (.missingValue c.path.toAttribute.text c.operator) := by
  cases i with
  | refused kind => exact .inl rfl
  | condition scope c =>
    have compared : c.operator ≠ .pr → (scope, c) ∈ f.comparisons none := fun comparison =>
      List.mem_filter.mpr ⟨Filter.mem_conditions_of_mem_items member, by simpa using comparison⟩
    by_cases null : c.operator ≠ .pr ∧ c.value = some .null
    · obtain ⟨comparison, given⟩ := null
      rcases Condition.failure?_null comparison given scope with same | missing
      · exact .inl same
      · exact .inr ⟨c, ⟨given, scope, compared comparison⟩, missing⟩
    · refine .inl (Condition.failure?_normal (fun comparison => ?_) scope)
      exact Filter.isKept_of_comparison finite (compared comparison)
        fun given => null ⟨comparison, given⟩

theorem error_of_compile_normal {f : Filter}
    (finite : ∀ x, some (.decimal x) ∈ f.values → x.isFinite = true) {order : SortOrder}
    {page : Page} {e : CompileError}
    (refused : (Query.compile (some f.normal) table order page requestId).result = .error e) :
    (Query.compile (some f) table order page requestId).result = .error e ∨
      ∃ c, f.NullAt c ∧ e = .missingValue c.path.toAttribute.text c.operator := by
  have items : ∀ f, itemsOf (some f) = f.items none := fun f => by simp [itemsOf]
  rw [← failureOf?_eq_some, Query.failureOf?_compile, items, Filter.items_normal,
    List.findSome?_map, List.findSome?_eq_some_iff] at refused
  obtain ⟨before, i, behind, parts, failed, passed⟩ := refused
  have here : i ∈ f.items none := parts ▸ List.mem_append_right before List.mem_cons_self
  rcases Item.failure?_normal finite here with same | ⟨c, null, missing⟩
  · refine .inl ?_
    rw [← failureOf?_eq_some, Query.failureOf?_compile, items, List.findSome?_eq_some_iff]
    refine ⟨before, i, behind, parts, same ▸ failed, fun i' earlier => ?_⟩
    have inside : i' ∈ f.items none := parts ▸ List.mem_append_left (i :: behind) earlier
    rcases Item.failure?_normal finite inside with same | ⟨_, _, missing⟩
    · exact same ▸ passed i' earlier
    · cases missing.symm.trans (passed i' earlier)
  · exact .inr ⟨c, null, Option.some.inj (failed.symm.trans missing)⟩

end Compiling

/-! ### The tree and its text -/

/-- What the text of a tree is read back as compiles like the tree itself, as long as nothing is
compared with null. With such a comparison it is refused, with the error of the tree or because the
comparison has no value. -/
theorem delivered_compile {f : Filter} (low : f.height ≤ 126) (floats : f.FloatsReadBack)
    (finite : ∀ x, some (.decimal x) ∈ f.values → x.isFinite = true) :
    ∃ g, Filter.ofRequest f.toJson.compact = .ok (some g) ∧
      ∀ table order page requestId,
        ((∀ c, ¬ f.NullAt c) →
          Query.compile (some g) table order page requestId =
            Query.compile (some f) table order page requestId) ∧
        ((∃ c, f.NullAt c) →
          ∃ e, (Query.compile (some g) table order page requestId).result = .error e ∧
            ((Query.compile (some f) table order page requestId).result = .error e ∨
              ∃ c, f.NullAt c ∧ e = .missingValue c.path.toAttribute.text c.operator)) := by
  refine ⟨f.normal, ?_, fun table order page requestId => ⟨fun unnull => ?_, ?_⟩⟩
  · rw [Filter.ofRequest, Filter.parse_written floats, if_pos low]
    rfl
  · refine Query.compile_normal (fun e member => ?_) table order page requestId
    exact Filter.isKept_of_comparison finite member fun null => unnull e.2 ⟨null, e.1, member⟩
  · rintro ⟨c, null, scope, member⟩
    have valueless : c.normal.value = none := by
      rw [Condition.normal, null]
      rfl
    have same : (scope, c.normal) ∈ f.normal.comparisons none := by
      rw [Filter.comparisons_normal]
      exact List.mem_map_of_mem member
    cases refused : (Query.compile (some f.normal) table order page requestId).result with
    | ok q => exact absurd refused (compile_ne_ok_of_valueless same valueless table order page _ q)
    | error e => exact ⟨e, rfl, error_of_compile_normal finite refused⟩

/-- `note eq null`. -/
def nullFilter : Filter := .condition ⟨{ name := "note" }, .eq, some .null⟩

/-- `reviews[score ge 1.5]`. -/
def scoreFilter : Filter :=
  .valuePath { name := "reviews" } (.condition ⟨{ name := "score" }, .ge, some (.decimal 1.5)⟩)

theorem scoreFilter_delivered :
    (∃ g, Filter.ofRequest scoreFilter.toJson.compact = .ok (some g) ∧
      ∀ table order page requestId,
        Query.compile (some g) table order page requestId =
          Query.compile (some scoreFilter) table order page requestId) ∧
    ∃ g, Filter.ofRequest (Filter.logical scoreFilter .and nullFilter).toJson.compact =
        .ok (some g) ∧
      ∀ table order page requestId,
        ∃ e, (Query.compile (some g) table order page requestId).result = .error e := by
  have text : (Json.decimal 1.5).compact = "1.5" := by decide +kernel
  have readsBack : Json.parse (Json.decimal 1.5).compact = .ok (.decimal 1.5) := by
    rw [text]
    rfl
  have one : ∀ {x}, some (Scalar.decimal x) ∈ scoreFilter.values → x = 1.5 := by
    intro x given
    exact Scalar.decimal.inj (Option.some.inj (List.mem_singleton.mp given))
  have both : ∀ {x}, some (Scalar.decimal x) ∈ (Filter.logical scoreFilter .and nullFilter).values →
      x = 1.5 := by
    intro x given
    rcases List.mem_append.mp given with first | second
    · exact one first
    · cases List.mem_singleton.mp second
  constructor
  · obtain ⟨g, read, compiles⟩ := delivered_compile (f := scoreFilter) (by decide)
      (fun x given _ => one given ▸ readsBack) (fun x given => one given ▸ by decide)
    refine ⟨g, read, fun table order page requestId => ?_⟩
    refine (compiles table order page requestId).1 fun c null => ?_
    obtain ⟨given, scope, member⟩ := null
    obtain ⟨rfl, rfl⟩ := Prod.mk.inj (List.mem_singleton.mp member)
    cases given
  · obtain ⟨g, read, compiles⟩ := delivered_compile (f := .logical scoreFilter .and nullFilter)
      (by decide) (fun x given _ => both given ▸ readsBack) (fun x given => both given ▸ by decide)
    refine ⟨g, read, fun table order page requestId => ?_⟩
    obtain ⟨e, refused, _⟩ := (compiles table order page requestId).2
      ⟨_, rfl, none, List.mem_cons_of_mem _ List.mem_cons_self⟩
    exact ⟨e, refused⟩

def noteTable : MappingTable := .ofList [({ name := "note" }, ⟨"t.note", .string, true⟩)]

theorem nullFilter_delivered :
    nullFilter.height ≤ 126 ∧ (∀ x, some (.decimal x) ∉ nullFilter.values) ∧
      (Query.compile (some nullFilter) noteTable ⟨"t.note", .asc⟩ ⟨0, 10⟩ "").result =
        .ok ⟨⟨" (t.note = ?)  ", [.null]⟩, "limit 0, 10", "order by t.note asc"⟩ ∧
      ∃ g, Filter.ofRequest nullFilter.toJson.compact = .ok (some g) ∧
        (Query.compile (some g) noteTable ⟨"t.note", .asc⟩ ⟨0, 10⟩ "").result =
          .error (.missingValue "note" .eq) := by
  have noFloats : ∀ x, some (.decimal x) ∉ nullFilter.values := by
    intro x given
    cases List.mem_singleton.mp given
  have floats : nullFilter.FloatsReadBack := fun x given => absurd given (noFloats x)
  refine ⟨by decide, noFloats, by rfl, nullFilter.normal, ?_, by rfl⟩
  rw [Filter.ofRequest, Filter.parse_written floats]
  rfl

end ScimQuery
