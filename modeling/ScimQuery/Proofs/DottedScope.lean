import ScimQuery.Proofs.Compilation
import ScimQuery.Proofs.DefaultOrder

/-!
# Value paths on sub-attributes

The names in a loaded table have no dot, and the scope of a value path on a sub-attribute has one. So
such a scope never finds anything: the filter inside is compiled as if it stood alone, as long as no
value path is in it (`dotted_scope`).
-/

namespace ScimQuery

/-! ### Look-ups -/

theorem Attribute.dot_mem_text {a : Attribute} {sub : String} (given : a.sub = some sub) :
    '.' ∈ a.text.toList := by
  simp [text, given]

namespace MappingTable

variable {t : MappingTable} {scope : String}

theorem Parsed.get?_dotted (parsed : t.Parsed) (dotted : '.' ∈ scope.toList)
    (sub : Option String) : t.get? ⟨scope, sub⟩ = none := by
  refine Option.eq_none_iff_forall_ne_some.mpr fun c found => ?_
  obtain ⟨text, read⟩ := parsed _ (Dictionary.get?_eq_some_iff.mp found)
  obtain ⟨⟨⟨_, undotted⟩, _⟩, _⟩ := Attribute.parse_ok_iff.mp read
  exact undotted dotted

theorem Parsed.find?_dotted (parsed : t.Parsed) (dotted : '.' ∈ scope.toList) (a : Attribute) :
    t.find? a (some scope) = t.find? a none := by
  simp [find?, parsed.get?_dotted dotted]

end MappingTable

/-! ### Compilations in other scopes -/

/-- No value path stands in the filter. -/
def Filter.Unscoped : Filter → Prop
  | condition _ => True
  | logical left _ right => left.Unscoped ∧ right.Unscoped
  | valuePath .. => False
  | negation inner => inner.Unscoped

section Scopes

variable {t : MappingTable} {scope scope' : Option String} {f : Filter} {p : Predicate}

theorem Condition.Binds.in_scope {c : Condition} {column : Column} {v : Option Parameter}
    (binds : c.Binds t scope column v) (same : ∀ a, t.find? a scope = t.find? a scope') :
    c.Binds t scope' column v := by
  obtain ⟨found, bound⟩ := binds
  rw [MappingTable.resolve_ok_iff, same] at found
  exact ⟨MappingTable.resolve_ok_iff.mpr found, bound⟩

/-- Inside a value path there is no other one. -/
theorem Compiles.unscoped (h : Compiles t scope f p) (inside : scope.isSome) : f.Unscoped := by
  induction h with
  | condition => exact trivial
  | leaf _ _ rest => exact ⟨trivial, rest inside⟩
  | group _ _ _ first rest => exact ⟨first inside, rest inside⟩
  | valuePath => cases inside

/-- Without value paths a scope matters only to the look-ups. -/
theorem Compiles.in_scope (h : Compiles t scope f p)
    (same : ∀ a, t.find? a scope = t.find? a scope') (unscoped : f.Unscoped) :
    Compiles t scope' f p := by
  induction h with
  | condition binds => exact .condition (binds.in_scope same)
  | leaf binds _ rest => exact .leaf (binds.in_scope same) (rest same unscoped.2)
  | group inner _ _ first rest =>
    exact .group inner (first same unscoped.1) (rest same unscoped.2)
  | valuePath => exact unscoped.elim

theorem compiles_valuePath_iff {path : AttributePath}
    (same : ∀ a, t.find? a (some path.toAttribute.text) = t.find? a none) :
    Compiles t none (.valuePath path f) p ↔ f.Unscoped ∧ Compiles t none f p := by
  constructor
  · intro h
    cases h with
    | valuePath within =>
      have unscoped := within.unscoped rfl
      exact ⟨unscoped, within.in_scope same unscoped⟩
  · rintro ⟨unscoped, outside⟩
    exact .valuePath (outside.in_scope (fun a => (same a).symm) unscoped)

end Scopes

/-- In a loaded resource no attribute is looked up as a sub-attribute of a sub-attribute. So a value
path on a sub-attribute compiles when the filter inside has no value path and compiles on its own,
and then to the same query. -/
theorem dotted_scope {files : Files} {home : Option String} {overrides : Overrides} {s : Settings}
    (loaded : (Settings.load files home overrides).result = .ok s) {name : String} {r : Resource}
    (present : (name, r) ∈ s.resources.entries) {path : AttributePath} {sub : String}
    (given : path.sub = some sub) (f : Filter) (order : SortOrder) (page : Page)
    (requestId : String) :
    (∀ q, (Query.compile (some (.valuePath path f)) r.table order page requestId).result = .ok q ↔
      f.Unscoped ∧ (Query.compile (some f) r.table order page requestId).result = .ok q) ∧
    ∀ a : Attribute, r.table.get? ⟨path.toAttribute.text, some a.name⟩ = none ∧
      ∀ c, r.table.resolve a (some path.toAttribute.text) = .ok c ↔
        r.table.resolve a none = .ok c := by
  have parsed := load_parsed loaded present
  have dotted := Attribute.dot_mem_text given
  refine ⟨fun q => ?_, fun a => ⟨parsed.get?_dotted dotted _, fun c => ?_⟩⟩
  · rw [Query.compile_ok_iff, Query.compile_ok_iff]
    simp only [compiles_valuePath_iff (parsed.find?_dotted dotted)]
    rw [← exists_and_left]
    simp only [and_assoc]
  · rw [MappingTable.resolve_ok_iff, MappingTable.resolve_ok_iff, parsed.find?_dotted dotted]

/-! ### A name with parts -/

def nameFiles : Files :=
  Files.ofList [("scimsql.json", .ok ("\x7b\"resources\":\x7b\"u\":\x7b\"mappings\":\x7b"
    ++ "\"name.family\":\x7b\"column\":\"t.family\"\x7d,"
    ++ "\"family\":\x7b\"column\":\"t.house\"\x7d\x7d\x7d\x7d\x7d"))]

/-- `family sw "O"`. -/
def familyFilter : Filter := .condition ⟨{ name := "family" }, .sw, some (.string "O")⟩

/-- Within `name` the condition stands on the column of `name.family`, within `name.official` on that
of `family`; a value path inside is refused. -/
theorem nameFiles_dotted_scope :
    ∃ s r, (Settings.load nameFiles none {}).result = .ok s ∧
      ("u", r) ∈ s.resources.entries ∧
      let compiled := fun f => (Query.compile (some f) r.table ⟨"t.id", .asc⟩ ⟨0, 10⟩ "").result
      (∃ q, compiled (.valuePath { name := "name" } familyFilter) = .ok q ∧
        q.predicate.text = " (t.family LIKE ?)  ") ∧
      (∃ q, compiled familyFilter = .ok q ∧ q.predicate.text = " (t.house LIKE ?)  " ∧
        compiled (.valuePath { name := "name", sub := some "official" } familyFilter) = .ok q) ∧
      ¬∃ q, compiled (.valuePath { name := "name", sub := some "official" }
        (.valuePath { name := "name" } familyFilter)) = .ok q := by
  have holds : ((Settings.load nameFiles none {}).result.toOption.bind fun s =>
      (s.resources.get? "u").filter fun r =>
        let compiled := fun f =>
          (Query.compile (some f) r.table ⟨"t.id", .asc⟩ ⟨0, 10⟩ "").result.toOption.map
            (·.predicate.text)
        compiled (.valuePath { name := "name" } familyFilter) = some " (t.family LIKE ?)  " &&
          compiled familyFilter = some " (t.house LIKE ?)  ").isSome = true := by decide +kernel
  obtain ⟨r, found⟩ := Option.isSome_iff_exists.mp holds
  obtain ⟨s, loaded, found⟩ := Option.bind_eq_some_iff.mp found
  obtain ⟨named, found⟩ := Option.filter_eq_some_iff.mp found
  obtain ⟨within, alone⟩ := (Bool.and_eq_true _ _).mp found
  have loaded := toOption_eq_some_iff.mp loaded
  have present := Catalog.get?_eq_some_iff.mp named
  have official : ({ name := "name", sub := some "official" } : AttributePath).sub =
    some "official" := rfl
  have dotted := fun f => (dotted_scope loaded present official f ⟨"t.id", .asc⟩ ⟨0, 10⟩ "").1
  obtain ⟨q, compiled, text⟩ := Option.map_eq_some_iff.mp (of_decide_eq_true within)
  obtain ⟨q', compiled', text'⟩ := Option.map_eq_some_iff.mp (of_decide_eq_true alone)
  have compiled' := toOption_eq_some_iff.mp compiled'
  refine ⟨s, r, loaded, present, ⟨q, toOption_eq_some_iff.mp compiled, text⟩,
    ⟨q', compiled', text', (dotted _ q').mpr ⟨trivial, compiled'⟩⟩, ?_⟩
  rintro ⟨q, nested⟩
  exact ((dotted _ q).mp nested).1

end ScimQuery
