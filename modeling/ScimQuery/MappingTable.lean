import ScimQuery.CompileError
import ScimQuery.Dictionary

/-!
# Mapping tables

Which column stands behind which attribute. Schema URIs play no part: a table is keyed by
attributes, each at most once, and the last column given for an attribute counts.
-/

namespace ScimQuery

abbrev MappingTable := Dictionary Attribute Column

namespace MappingTable

/-- Puts a column behind an attribute; the schema of the path is dropped. -/
def add (t : MappingTable) (path : AttributePath) (column : Column) : MappingTable :=
  Dictionary.insert t path.toAttribute column

@[simp] theorem get?_add (t : MappingTable) (path : AttributePath) (column : Column)
    (a : Attribute) :
    (t.add path column).get? a = if a = path.toAttribute then some column else t.get? a :=
  Dictionary.get?_insert t path.toAttribute a column

/-- The table of some mappings, each added to those before it. -/
def ofMappings (mappings : List (AttributePath × Column)) : MappingTable :=
  mappings.foldl (fun t m => t.add m.1 m.2) .empty

/-- The mappings of a table, under paths without a schema. -/
def mappings (t : MappingTable) : List (AttributePath × Column) :=
  t.entries.map fun e => ({ toAttribute := e.1 }, e.2)

/-- The column behind an attribute. Inside the scope of a value path the attribute's name is first
tried as a sub-attribute of the scope. -/
def find? (t : MappingTable) (a : Attribute) (scope : Option String) : Option Column :=
  (scope.bind fun name => t.get? { name, sub := some a.name }).or (t.get? a)

/-- An attribute as messages show it, with the scope it was looked up in. -/
def shown (a : Attribute) : Option String → String
  | some name => name ++ "[" ++ a.text ++ "]"
  | none => a.text

def resolve (t : MappingTable) (a : Attribute) (scope : Option String) :
    Except CompileError Column :=
  match t.find? a scope with
  | some c => .ok c
  | none => .error (.unmapped (shown a scope))

theorem resolve_ok_iff {t : MappingTable} {a : Attribute} {scope : Option String} {c : Column} :
    t.resolve a scope = .ok c ↔ t.find? a scope = some c := by
  unfold resolve
  cases t.find? a scope <;> simp

theorem mem_of_resolve {t : MappingTable} {a : Attribute} {scope : Option String} {c : Column}
    (h : t.resolve a scope = .ok c) : ∃ key, (key, c) ∈ t.entries := by
  rcases Option.or_eq_some_iff.mp (resolve_ok_iff.mp h) with within | ⟨_, own⟩
  · obtain ⟨name, _, found⟩ := Option.bind_eq_some_iff.mp within
    exact ⟨_, Dictionary.mem_of_get? found⟩
  · exact ⟨_, Dictionary.mem_of_get? own⟩

def sortColumn (t : MappingTable) (a : Attribute) : Except CompileError String := do
  let c ← t.resolve a none
  if c.sortable then return c.column else throw (.unsortable a.text)

end MappingTable

end ScimQuery
