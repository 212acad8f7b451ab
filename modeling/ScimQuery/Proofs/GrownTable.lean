import ScimQuery.Proofs.Meaning

/-!
# Growing mapping tables

A mapping that is added to a table changes nothing for a filter that does not ask for its attribute.
A filter that compiled stays as it was also when it asks for the new attribute, unless the scope of
a value path makes up the attribute: then the mapping takes the condition over (`grown_table`).
-/

namespace ScimQuery

/-! ### Look-ups in a grown table -/

/-- Within the scope, the name is first looked up under the attribute. -/
def Attribute.MadeOf (a : Attribute) (scope : Option String) (name : String) : Prop :=
  scope = some a.name ∧ a.sub = some name

instance (a : Attribute) (scope : Option String) (name : String) : Decidable (a.MadeOf scope name) :=
  inferInstanceAs (Decidable (_ ∧ _))

theorem Attribute.madeOf_iff {a : Attribute} {scope name : String} :
    a.MadeOf (some scope) name ↔ ⟨scope, some name⟩ = a := by
  obtain ⟨own, sub⟩ := a
  simp [MadeOf, eq_comm]

namespace MappingTable

variable {t : MappingTable} {path : AttributePath} {column : Column} {a : Attribute}
  {scope : Option String}

theorem resolve_add_of_ne (own : a ≠ path.toAttribute)
    (apart : ¬ path.toAttribute.MadeOf scope a.name) :
    (t.add path column).resolve a scope = t.resolve a scope := by
  have found : (t.add path column).find? a scope = t.find? a scope := by
    cases scope with
    | none => simp [find?, own]
    | some name => simp [find?, own, mt Attribute.madeOf_iff.mpr apart]
  rw [resolve, resolve, found]

theorem resolve_add_of_fresh (fresh : t.get? path.toAttribute = none)
    (apart : ¬ path.toAttribute.MadeOf scope a.name) {c : Column} (found : t.resolve a scope = .ok c) :
    (t.add path column).resolve a scope = .ok c := by
  by_cases own : a = path.toAttribute
  · -- The table has no such key, so the attribute was found as a sub-attribute of the scope.
    subst own
    cases scope with
    | none => simp [resolve_ok_iff, find?, fresh] at found
    | some name =>
      have other := mt Attribute.madeOf_iff.mpr apart
      rw [resolve_ok_iff] at found ⊢
      simp only [find?, fresh, Option.or_none, Option.bind_some] at found
      simp [find?, other, found]
  · rw [resolve_add_of_ne own apart, found]

theorem resolve_add_of_madeOf (taken : path.toAttribute.MadeOf scope a.name) :
    (t.add path column).resolve a scope = .ok column := by
  obtain ⟨rfl, _⟩ := id taken
  have same := Attribute.madeOf_iff.mp taken
  rw [resolve_ok_iff]
  simp [find?, same]

end MappingTable

/-! ### Filters on a grown table -/

/-- A condition of the filter is on the attribute itself. -/
def Filter.Names (f : Filter) (a : Attribute) : Prop :=
  ∃ e ∈ f.conditions none, e.2.path.toAttribute = a

/-- A condition of the filter, inside a value path, is first looked up under the attribute. -/
def Filter.Scopes (f : Filter) (a : Attribute) : Prop :=
  ∃ e ∈ f.conditions none, a.MadeOf e.1 e.2.path.name

instance (f : Filter) (a : Attribute) : Decidable (f.Names a) :=
  inferInstanceAs (Decidable (∃ e ∈ f.conditions none, _))

instance (f : Filter) (a : Attribute) : Decidable (f.Scopes a) :=
  inferInstanceAs (Decidable (∃ e ∈ f.conditions none, _))

theorem Query.result_compile_add {f : Filter} {path : AttributePath}
    (unnamed : ¬ f.Names path.toAttribute) (apart : ¬ f.Scopes path.toAttribute)
    (t : MappingTable) (column : Column) (order : SortOrder) (page : Page) (requestId : String) :
    (Query.compile (some f) (t.add path column) order page requestId).result =
      (Query.compile (some f) t order page requestId).result := by
  have same : ∀ e ∈ f.conditions none, (t.add path column).resolve e.2.path.toAttribute e.1 =
      t.resolve e.2.path.toAttribute e.1 := by
    intro e member
    exact MappingTable.resolve_add_of_ne (fun own => unnamed ⟨e, member, own⟩)
      fun made => apart ⟨e, member, made⟩
  rw [result_compile, result_compile, Filter.result_compile_congr same requestId requestId]

theorem Query.compile_add_of_fresh {f : Filter} {t : MappingTable} {path : AttributePath}
    (fresh : t.get? path.toAttribute = none) (apart : ¬ f.Scopes path.toAttribute)
    (column : Column) {order : SortOrder} {page : Page} {requestId : String} {q : Query}
    (compiled : (Query.compile (some f) t order page requestId).result = .ok q) :
    (Query.compile (some f) (t.add path column) order page requestId).result = .ok q := by
  obtain ⟨p, compiles, _⟩ := Query.compile_ok_iff.mp compiled
  have same : ∀ e ∈ f.conditions none, (t.add path column).resolve e.2.path.toAttribute e.1 =
      t.resolve e.2.path.toAttribute e.1 := by
    intro e member
    obtain ⟨c, found⟩ := compiles.resolved e member
    rw [found]
    exact MappingTable.resolve_add_of_fresh fresh (fun made => apart ⟨e, member, made⟩) found
  rw [result_compile] at compiled ⊢
  rw [Filter.result_compile_congr same requestId requestId, compiled]

/-- A mapping changes nothing for a filter that does not ask for its attribute. A filter that
compiled stays as it was when the attribute is new, unless the scope of a value path makes up the
attribute; a new attribute without a sub-attribute never matters to it. A condition whose scope
makes up the attribute stands on the added column. -/
theorem grown_table (f : Filter) (t : MappingTable) (path : AttributePath) (column : Column)
    (order : SortOrder) (page : Page) (requestId : String) :
    let compiled := fun u : MappingTable => (Query.compile (some f) u order page requestId).result
    (¬ f.Names path.toAttribute → ¬ f.Scopes path.toAttribute →
      compiled (t.add path column) = compiled t) ∧
    (t.get? path.toAttribute = none → ¬ f.Scopes path.toAttribute → ∀ q,
      compiled t = .ok q → compiled (t.add path column) = .ok q) ∧
    (t.get? path.toAttribute = none → path.sub = none → ∀ q,
      compiled t = .ok q → compiled (t.add path column) = .ok q) ∧
    ∀ e ∈ f.conditions none, path.toAttribute.MadeOf e.1 e.2.path.name →
      (t.add path column).resolve e.2.path.toAttribute e.1 = .ok column := by
  refine ⟨fun unnamed apart => ?_, fun fresh apart q compiled => ?_,
    fun fresh whole q compiled => ?_, fun e _ made => ?_⟩
  · exact Query.result_compile_add unnamed apart t column order page requestId
  · exact Query.compile_add_of_fresh fresh apart column compiled
  · have apart : ¬ f.Scopes path.toAttribute := by
      rintro ⟨e, _, _, sub⟩
      exact Option.some_ne_none _ (sub.symm.trans whole)
    exact Query.compile_add_of_fresh fresh apart column compiled
  · exact MappingTable.resolve_add_of_madeOf made

/-! ### A table with other columns -/

def receiver : Column := ⟨"rcp.id", .int, true⟩

/-- `to.size` and `subject` are not asked for. `type` is, but within `to` it stands on the column of
`to.type`. The condition on `id` within `to` is taken over by `to.id`. -/
theorem scopedFilter_grown_table :
    let compiled := fun t : MappingTable =>
      (Query.compile (some scopedFilter) t ⟨"msg.id", .desc⟩ ⟨2, 10⟩ "").result
    compiled messages = .ok scopedQuery ∧
    (¬ scopedFilter.Names { name := "to", sub := some "size" } ∧
      ¬ scopedFilter.Scopes { name := "to", sub := some "size" } ∧
      compiled (messages.add { name := "to", sub := some "size" } receiver) =
        compiled messages) ∧
    (messages.get? { name := "type" } = none ∧ ¬ scopedFilter.Scopes { name := "type" } ∧
      compiled (messages.add { name := "type" } receiver) = .ok scopedQuery) ∧
    (messages.get? { name := "subject" } = none ∧
      compiled (messages.add { name := "subject" } receiver) = .ok scopedQuery) ∧
    (messages.add { name := "to", sub := some "id" } receiver).resolve { name := "id" } (some "to") =
      .ok receiver := by
  have unnamed : ¬ scopedFilter.Names { name := "to", sub := some "size" } := by decide
  have apart : ¬ scopedFilter.Scopes { name := "to", sub := some "size" } := by decide
  have typeFresh : messages.get? { name := "type" } = none := by decide
  have typeApart : ¬ scopedFilter.Scopes { name := "type" } := by decide
  have subjectFresh : messages.get? { name := "subject" } = none := by decide
  have member : (some "to", ⟨{ name := "id" }, .pr, none⟩) ∈ scopedFilter.conditions none :=
    List.mem_cons_of_mem _ List.mem_cons_self
  have grown : ∀ path : AttributePath, _ := fun path =>
    grown_table scopedFilter messages path receiver ⟨"msg.id", .desc⟩ ⟨2, 10⟩ ""
  exact ⟨compile_scopedFilter,
    ⟨unnamed, apart, (grown { name := "to", sub := some "size" }).1 unnamed apart⟩,
    ⟨typeFresh, typeApart,
      (grown { name := "type" }).2.1 typeFresh typeApart _ compile_scopedFilter⟩,
    ⟨subjectFresh, (grown { name := "subject" }).2.2.1 subjectFresh rfl _ compile_scopedFilter⟩,
    (grown { name := "to", sub := some "id" }).2.2.2 _ member (by decide)⟩

end ScimQuery
