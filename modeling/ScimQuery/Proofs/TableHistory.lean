import Mathlib.Data.Finset.Card
import ScimQuery.MappingTable
import ScimQuery.Proofs.Lookup

/-!
# How mapping tables are built

A table is built by adding mappings one by one and by collecting many at once. `built_table` says
what it then holds: under each attribute that was added the last column given for it, whatever
schemas the paths had. Inside a value path the last column of the scoped attribute comes first.
-/

namespace ScimQuery

/-! ### The last mapping -/

/-- The column of the last mapping whose path is wanted. -/
def latest? (wanted : AttributePath → Bool) (mappings : List (AttributePath × Column)) :
    Option Column :=
  (mappings.reverse.find? fun m => wanted m.1).map (·.2)

@[simp] theorem latest?_concat (wanted : AttributePath → Bool)
    (mappings : List (AttributePath × Column)) (m : AttributePath × Column) :
    latest? wanted (mappings ++ [m]) =
      if wanted m.1 then some m.2 else latest? wanted mappings := by
  unfold latest?
  rw [List.reverse_append, List.reverse_singleton, List.singleton_append, List.find?_cons]
  cases wanted m.1 <;> rfl

theorem exists_latest?_iff {wanted : AttributePath → Bool}
    {mappings : List (AttributePath × Column)} :
    (∃ c, latest? wanted mappings = some c) ↔ ∃ m ∈ mappings, wanted m.1 = true := by
  unfold latest?
  rw [← Option.isSome_iff_exists, Option.isSome_map, List.find?_isSome]
  simp only [List.mem_reverse]

/-! ### Tables of mappings -/

namespace MappingTable

theorem ofMappings_concat (ms : List (AttributePath × Column)) (m : AttributePath × Column) :
    ofMappings (ms ++ [m]) = (ofMappings ms).add m.1 m.2 :=
  List.foldl_concat ..

theorem get?_ofMappings (ms : List (AttributePath × Column)) (a : Attribute) :
    (ofMappings ms).get? a = latest? (·.toAttribute = a) ms := by
  induction ms using List.reverseRecOn with
  | nil => rfl
  | append_singleton ms m ih =>
    rw [ofMappings_concat, get?_add, latest?_concat, ih]
    simp [eq_comm]

theorem find?_ofMappings (ms : List (AttributePath × Column)) (a : Attribute)
    (scope : Option String) :
    (ofMappings ms).find? a scope =
      (scope.bind fun name => latest? (·.toAttribute = ⟨name, some a.name⟩) ms).or
        (latest? (·.toAttribute = a) ms) := by
  simp only [find?, get?_ofMappings]

theorem mem_keys_ofMappings {ms : List (AttributePath × Column)} {a : Attribute} :
    a ∈ (ofMappings ms).entries.map (·.1) ↔ a ∈ ms.map (·.1.toAttribute) := by
  rw [Dictionary.mem_keys_iff, get?_ofMappings, exists_latest?_iff]
  simp

theorem size_ofMappings (ms : List (AttributePath × Column)) :
    (ofMappings ms).size = (ms.map (·.1.toAttribute)).toFinset.card := by
  have keys : ((ofMappings ms).entries.map (·.1)).toFinset =
      (ms.map (·.1.toAttribute)).toFinset := by
    ext a
    rw [List.mem_toFinset, List.mem_toFinset, mem_keys_ofMappings]
  rw [← keys, List.toFinset_card_of_nodup (ofMappings ms).distinct, List.length_map]
  rfl

variable {t : MappingTable}

theorem mem_mappings_iff {p : AttributePath} {c : Column} :
    (p, c) ∈ t.mappings ↔ p.schema = none ∧ t.get? p.toAttribute = some c := by
  obtain ⟨a, schema⟩ := p
  simp only [mappings, List.mem_map, Dictionary.get?_eq_some_iff, Prod.mk.injEq,
    AttributePath.mk.injEq, Prod.exists]
  constructor
  · rintro ⟨a, c, member, ⟨rfl, rfl⟩, rfl⟩
    exact ⟨rfl, member⟩
  · rintro ⟨rfl, member⟩
    exact ⟨a, c, member, ⟨rfl, rfl⟩, rfl⟩

theorem nodup_mappings (t : MappingTable) : (t.mappings.map (·.1)).Nodup := by
  have paths : t.mappings.map (·.1) = (t.entries.map (·.1)).map fun a => { toAttribute := a } := by
    simp [mappings]
  rw [paths]
  exact t.distinct.map fun a b same => congrArg AttributePath.toAttribute same

end MappingTable

/-! ### Histories -/

/-- What can be done to a table. Mappings that are collected make a new one. -/
inductive TableStep where
  | add (path : AttributePath) (column : Column)
  | collect (mappings : List (AttributePath × Column))

namespace TableStep

def run (t : MappingTable) : TableStep → MappingTable
  | add path column => t.add path column
  | collect mappings => .ofMappings mappings

/-- The mappings that a table was made from, one step later. -/
def extend (ms : List (AttributePath × Column)) : TableStep → List (AttributePath × Column)
  | add path column => ms ++ [(path, column)]
  | collect mappings => mappings

/-- The step with paths that have no schema. -/
def unqualified : TableStep → TableStep
  | add path column => add { toAttribute := path.toAttribute } column
  | collect mappings => collect (mappings.map fun m => ({ toAttribute := m.1.toAttribute }, m.2))

theorem run_ofMappings (ms : List (AttributePath × Column)) (s : TableStep) :
    s.run (.ofMappings ms) = .ofMappings (s.extend ms) := by
  cases s with
  | add path column => exact (MappingTable.ofMappings_concat ms (path, column)).symm
  | collect => rfl

theorem run_unqualified (t : MappingTable) (s : TableStep) : s.unqualified.run t = s.run t := by
  cases s with
  | add => rfl
  | collect mappings =>
    simp only [unqualified, run, MappingTable.ofMappings, List.foldl_map]
    rfl

end TableStep

/-- The table after some steps, which is empty at first. -/
def built (steps : List TableStep) : MappingTable := steps.foldl TableStep.run Dictionary.empty

/-- The mappings that were added to this table, in their order. -/
def added (steps : List TableStep) : List (AttributePath × Column) :=
  steps.foldl TableStep.extend []

theorem built_eq_ofMappings (steps : List TableStep) :
    built steps = .ofMappings (added steps) := by
  have start : Dictionary.empty = MappingTable.ofMappings [] := rfl
  rw [built, start]
  exact List.foldl_hom MappingTable.ofMappings TableStep.run_ofMappings

theorem built_unqualified (steps : List TableStep) :
    built (steps.map TableStep.unqualified) = built steps := by
  simp only [built, List.foldl_map, TableStep.run_unqualified]

/-- The last write wins. A table has each attribute that was added once, without a schema, and the
schemas of the paths do not matter. Within a scope an attribute stands for the last column of the
scoped attribute, else for the last one of its own. -/
theorem built_table (steps : List TableStep) (path : AttributePath) (parent : Option String) :
    (built steps).resolve path.toAttribute parent =
      (match parent.bind fun name =>
          latest? (·.toAttribute = ⟨name, some path.name⟩) (added steps) with
        | some c => .ok c
        | none =>
          match latest? (·.toAttribute = path.toAttribute) (added steps) with
          | some c => .ok c
          | none => .error (.unmapped (match parent with
            | some name => name ++ "[" ++ path.toAttribute.text ++ "]"
            | none => path.toAttribute.text))) ∧
    built (steps.map TableStep.unqualified) = built steps ∧
    (built steps).size = ((added steps).map (·.1.toAttribute)).toFinset.card ∧
    ((built steps).mappings.map (·.1)).Nodup ∧
    ∀ p c, (p, c) ∈ (built steps).mappings ↔
      p.schema = none ∧ latest? (·.toAttribute = p.toAttribute) (added steps) = some c := by
  refine ⟨?_, built_unqualified steps, ?_, MappingTable.nodup_mappings _, fun p c => ?_⟩
  · rw [built_eq_ofMappings, MappingTable.resolve, MappingTable.find?_ofMappings]
    cases parent.bind fun name =>
        latest? (·.toAttribute = ⟨name, some path.name⟩) (added steps) with
    | some c => rfl
    | none =>
      cases latest? (·.toAttribute = path.toAttribute) (added steps) with
      | some c => rfl
      | none => cases parent <;> rfl
  · rw [built_eq_ofMappings, MappingTable.size_ofMappings]
  · rw [MappingTable.mem_mappings_iff, built_eq_ofMappings, MappingTable.get?_ofMappings]

/-- A name with a dot in it is another attribute than the sub-attribute with the same text. -/
example : (built [.add { name := "to.type", schema := some "urn:x" } ⟨"msg.kind", .string, true⟩,
    .add { name := "to", sub := some "type" } ⟨"rcp.type", .string, false⟩]).size = 2 := by
  rfl

end ScimQuery
