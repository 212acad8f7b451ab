import ScimQuery.Proofs.Layering
import ScimQuery.Proofs.TableHistory

/-!
# The table of a section

A section has its mappings under texts, its table under attributes. Texts that differ in the blanks
around them name one attribute, and of their mappings only the last enumerated one gets into the
table. `section_mappings` says when no mapping is lost, and that each mapping of a section is the
one that stays in some enumeration.
-/

namespace ScimQuery

namespace MappingTable

/-- A table of entries is a table of mappings whose paths have no schema. -/
theorem ofList_eq (es : List (Attribute × Column)) :
    Dictionary.ofList es = ofMappings (es.map fun e => ({ toAttribute := e.1 }, e.2)) := by
  rw [ofMappings, List.foldl_map]
  rfl

theorem size_ofList_iff {es : List (Attribute × Column)} :
    (Dictionary.ofList es).size = es.length ↔ (es.map (·.1)).Nodup := by
  have card : (Dictionary.ofList es).size = (es.map (·.1)).toFinset.card := by
    rw [ofList_eq, size_ofMappings, List.map_map]
    rfl
  rw [card, ← List.length_map (·.1)]
  exact Multiset.toFinset_card_eq_card_iff_nodup (m := Multiset.ofList (es.map (·.1)))

end MappingTable

namespace Section

/-- Mappings of one attribute have one column. -/
def Unambiguous (s : Section) : Prop :=
  ∀ m ∈ s.mappings.entries, ∀ m' ∈ s.mappings.entries,
    Text.trim m.1.toList = Text.trim m'.1.toList → m.2 = m'.2

/-- The column of the last mapping of the attribute. -/
def last? (s : Section) (a : Attribute) : Option Column :=
  (s.mappings.entries.reverse.find? fun m => (Attribute.parse m.1).toOption = some a).map (·.2)

/-- The mappings of one section in two orders. -/
structure Enumerations (s s' : Section) : Prop where
  mappings : s'.mappings.entries.Perm s.mappings.entries
  orderBy : s'.orderBy = s.orderBy
  direction : s'.direction = s.direction
  count : s'.count = s.count

variable {s s' : Section} {name : String} {t t' : MappingTable} {a : Attribute} {c : Column}

/-! ### Look-ups -/

theorem maps_of_last? (h : s.last? a = some c) : s.Maps a c := by
  obtain ⟨m, found, rfl⟩ := Option.map_eq_some_iff.mp h
  have named := List.find?_some found
  have member := List.mem_of_find?_eq_some found
  exact ⟨m.1, List.mem_reverse.mp member, toOption_eq_some_iff.mp (of_decide_eq_true named)⟩

theorem exists_last?_iff : (∃ c, s.last? a = some c) ↔ ∃ c, s.Maps a c := by
  constructor
  · rintro ⟨c, last⟩
    exact ⟨c, maps_of_last? last⟩
  · rintro ⟨c, text, member, parsed⟩
    have found : (s.mappings.entries.reverse.find? fun m =>
        (Attribute.parse m.1).toOption = some a).isSome := by
      rw [List.find?_isSome]
      refine ⟨(text, c), List.mem_reverse.mpr member, ?_⟩
      exact decide_eq_true (toOption_eq_some_iff.mpr parsed)
    exact Option.isSome_iff_exists.mp (Option.isSome_map.trans found)

/-- The attributes of the mappings, in their order. -/
theorem exists_attributes (h : s.table name = .ok t) :
    ∃ es : List (Attribute × Column), t = .ofList es ∧
      es.map (fun e => (some e.1, e.2)) =
        s.mappings.entries.map fun m => ((Attribute.parse m.1).toOption, m.2) := by
  obtain ⟨es, converted, rfl⟩ := except_map_ok_iff.mp h
  refine ⟨es, rfl, map_of_mapM (fun m e read => ?_) converted⟩
  obtain ⟨a, parsed, rfl⟩ := except_map_ok_iff.mp (mapError_ok_iff.mp read)
  rw [parsed]
  rfl

theorem get?_table (h : s.table name = .ok t) (a : Attribute) : t.get? a = s.last? a := by
  obtain ⟨es, rfl, attributes⟩ := exists_attributes h
  have read (e : Attribute × Column) : decide (e.1 = a) = decide (some e.1 = some a) := by simp
  calc (Dictionary.ofList es).get? a
      = (es.reverse.find? fun e => e.1 = a).map (·.2) := by
        rw [MappingTable.ofList_eq, MappingTable.get?_ofMappings, latest?, ← List.map_reverse,
          List.find?_map, Option.map_map]
        rfl
    _ = ((es.map fun e => (some e.1, e.2)).reverse.find? fun e => e.1 = some a).map (·.2) := by
        rw [← List.map_reverse, List.find?_map, Option.map_map]
        simp only [Function.comp_def, read]
    _ = s.last? a := by
        rw [attributes, ← List.map_reverse, List.find?_map, Option.map_map]
        rfl

theorem resolve_table_iff (h : s.table name = .ok t) :
    t.resolve a none = .ok c ↔ s.last? a = some c := by
  rw [MappingTable.resolve_ok_iff, ← get?_table h]
  rfl

/-! ### Sizes -/

theorem exists_attribute (h : s.table name = .ok t) {m : String × Column}
    (member : m ∈ s.mappings.entries) : ∃ a, Attribute.parse m.1 = .ok a :=
  exists_table_iff.mp ⟨t, h⟩ m member

theorem distinct_iff (h : s.table name = .ok t) :
    s.Distinct ↔ (s.mappings.entries.map fun m => (Attribute.parse m.1).toOption).Nodup := by
  unfold Distinct List.Nodup
  rw [List.pairwise_map, List.pairwise_map]
  refine List.Pairwise.iff_of_mem fun {m m'} member member' => not_congr ?_
  obtain ⟨a, parsed⟩ := exists_attribute h member
  obtain ⟨b, parsed'⟩ := exists_attribute h member'
  rw [← Attribute.eq_iff_of_parse parsed parsed', parsed, parsed']
  exact (Option.some_inj).symm

/-- A table has as many entries as its section if and only if no two texts name one attribute. -/
theorem size_table_iff (h : s.table name = .ok t) : t.size = s.mappings.size ↔ s.Distinct := by
  obtain ⟨es, rfl, attributes⟩ := exists_attributes h
  have length : es.length = s.mappings.size := by
    simpa [Dictionary.size] using congrArg List.length attributes
  have keys : es.map (fun e => some e.1) =
      s.mappings.entries.map fun m => (Attribute.parse m.1).toOption := by
    simpa [Function.comp_def] using congrArg (List.map (·.1)) attributes
  have injected : (es.map fun e => some e.1) = (es.map (·.1)).map some := by simp
  rw [← length, distinct_iff h, ← keys, MappingTable.size_ofList_iff, injected]
  exact (List.nodup_map_iff (Option.some_injective _)).symm

/-! ### Orders -/

theorem Enumerations.exists_resource (e : s.Enumerations s') {r : Resource}
    (made : s.resource name = .ok r) : ∃ r', s'.resource name = .ok r' := by
  obtain ⟨built, read, _, _⟩ := resource_ok_iff.mp made
  have accepted : ∃ t', s'.table name = .ok t' :=
    exists_table_iff.mpr fun m member => exists_attribute built (e.mappings.mem_iff.mp member)
  obtain ⟨t', built'⟩ := accepted
  refine ⟨⟨t', r.orderBy, s'.direction.getD .asc, s'.count⟩, resource_ok_iff.mpr ?_⟩
  refine ⟨built', ?_, rfl, rfl⟩
  unfold orderAttribute at read ⊢
  rwa [e.orderBy]

theorem Enumerations.maps_iff (e : s.Enumerations s') : s'.Maps a c ↔ s.Maps a c :=
  exists_congr fun _ => and_congr_left fun _ => e.mappings.mem_iff

theorem Unambiguous.eq_of_maps (single : s.Unambiguous) {c' : Column} (first : s.Maps a c)
    (second : s.Maps a c') : c = c' := by
  obtain ⟨text, member, parsed⟩ := first
  obtain ⟨text', member', parsed'⟩ := second
  exact single _ member _ member' ((Attribute.eq_iff_of_parse parsed parsed').mp rfl)

/-- Without ambiguous mappings the order does not matter. -/
theorem Enumerations.last?_eq (e : s.Enumerations s') (single : s.Unambiguous) (a : Attribute) :
    s'.last? a = s.last? a := by
  have exist : (∃ c, s'.last? a = some c) ↔ ∃ c, s.last? a = some c := by
    rw [exists_last?_iff, exists_last?_iff]
    exact exists_congr fun c => e.maps_iff
  cases last : s.last? a with
  | none =>
    refine Option.eq_none_iff_forall_ne_some.mpr fun c found => ?_
    obtain ⟨_, other⟩ := exist.mp ⟨c, found⟩
    rw [last] at other
    cases other
  | some c =>
    obtain ⟨c', found⟩ := exist.mpr ⟨c, last⟩
    have maps' : s.Maps a c' := e.maps_iff.mp (maps_of_last? found)
    rw [found, single.eq_of_maps maps' (maps_of_last? last)]

/-- Each mapping is the last one in some order. -/
theorem exists_enumeration_last {m : String × Column} (member : m ∈ s.mappings.entries)
    (parsed : Attribute.parse m.1 = .ok a) :
    ∃ s', s.Enumerations s' ∧ s'.last? a = some m.2 := by
  obtain ⟨before, after, split⟩ := List.append_of_mem member
  have moved : (before ++ after ++ [m]).Perm s.mappings.entries := by
    rw [split, List.append_assoc]
    exact List.Perm.append_left before (List.perm_append_singleton m after)
  have distinct : ((before ++ after ++ [m]).map (·.1)).Nodup :=
    (moved.map (·.1)).nodup_iff.mpr s.mappings.distinct
  refine ⟨{ s with mappings := ⟨before ++ after ++ [m], distinct⟩ }, ⟨moved, rfl, rfl, rfl⟩, ?_⟩
  unfold last?
  rw [List.reverse_append, List.reverse_singleton, List.singleton_append, List.find?_cons, parsed]
  simp [Except.toOption]

end Section

/-- A section that is made into a resource puts behind each attribute its last mapping. So each
mapping can be looked up if and only if mappings of one attribute have one column, and then in all
orders; and the table has as many entries if and only if texts of the section differ in more than
blanks. Of ambiguous mappings any one may stay: the order decides. -/
theorem section_mappings {s : Section} {name : String} {r : Resource}
    (made : s.resource name = .ok r) :
    (∀ a c, r.table.resolve a none = .ok c ↔ s.last? a = some c) ∧
    ((∀ m ∈ s.mappings.entries, ∃ a, Attribute.parse m.1 = .ok a ∧
      r.table.resolve a none = .ok m.2) ↔ s.Unambiguous) ∧
    (r.table.size = s.mappings.size ↔ s.Distinct) ∧
    (∀ s', s.Enumerations s' → ∃ r', s'.resource name = .ok r' ∧
      (s.Unambiguous → ∀ a c, r'.table.resolve a none = .ok c ↔ r.table.resolve a none = .ok c)) ∧
    ∀ m ∈ s.mappings.entries, ∃ s' r' a, s.Enumerations s' ∧ s'.resource name = .ok r' ∧
      Attribute.parse m.1 = .ok a ∧ r'.table.resolve a none = .ok m.2 := by
  obtain ⟨built, _⟩ := Section.resource_ok_iff.mp made
  refine ⟨fun a c => Section.resolve_table_iff built, ⟨fun kept => ?_, fun single => ?_⟩,
    Section.size_table_iff built, fun s' e => ?_, fun m member => ?_⟩
  · intro m member m' member' same
    obtain ⟨a, parsed, found⟩ := kept m member
    obtain ⟨a', parsed', found'⟩ := kept m' member'
    obtain rfl := (Attribute.eq_iff_of_parse parsed parsed').mpr same
    exact Except.ok.inj (found.symm.trans found')
  · intro m member
    obtain ⟨a, parsed⟩ := Section.exists_attribute built member
    have maps : s.Maps a m.2 := ⟨m.1, member, parsed⟩
    obtain ⟨c, last⟩ := Section.exists_last?_iff.mpr ⟨m.2, maps⟩
    obtain rfl := single.eq_of_maps maps (Section.maps_of_last? last)
    exact ⟨a, parsed, (Section.resolve_table_iff built).mpr last⟩
  · obtain ⟨r', made'⟩ := e.exists_resource made
    obtain ⟨built', _⟩ := Section.resource_ok_iff.mp made'
    refine ⟨r', made', fun single a c => ?_⟩
    rw [Section.resolve_table_iff built', Section.resolve_table_iff built, e.last?_eq single]
  · obtain ⟨a, parsed⟩ := Section.exists_attribute built member
    obtain ⟨s', e, last⟩ := Section.exists_enumeration_last member parsed
    obtain ⟨r', made'⟩ := e.exists_resource made
    obtain ⟨built', _⟩ := Section.resource_ok_iff.mp made'
    exact ⟨s', r', a, e, made', parsed, (Section.resolve_table_iff built').mpr last⟩

/-! ### Two texts of one attribute -/

/-- Both mappings have one column. -/
def twinSection : Section where
  mappings := .ofList [("id", ⟨"usr.id", .string, false⟩), (" id ", ⟨"usr.id", .string, false⟩)]

def paddedSection : Section where
  mappings := .ofList [("id", ⟨"usr.id", .int, true⟩), ("emails.type", ⟨"eml.type", .string, false⟩),
    (" id ", ⟨"usr.uid", .string, false⟩)]

/-- A mapping is lost without a word. -/
theorem paddedSection_loses_mapping :
    (∃ r, twinSection.resource "users" = .ok r ∧ twinSection.mappings.size = 2 ∧
      r.table.size = 1) ∧
    ∃ r, paddedSection.resource "users" = .ok r ∧
      ("id", ⟨"usr.id", .int, true⟩) ∈ paddedSection.mappings.entries ∧
      Attribute.parse "id" = .ok { name := "id" } ∧
      r.table.resolve { name := "id" } none = .ok ⟨"usr.uid", .string, false⟩ := by
  refine ⟨⟨_, rfl, rfl, rfl⟩, ⟨_, rfl, ?_, rfl, rfl⟩⟩
  decide

theorem paddedSection_mappings :
    ∃ r, paddedSection.resource "users" = .ok r ∧ r.table.size ≠ paddedSection.mappings.size ∧
      ∃ s' r' a, paddedSection.Enumerations s' ∧ s'.resource "users" = .ok r' ∧
        Attribute.parse "id" = .ok a ∧ r'.table.resolve a none = .ok ⟨"usr.id", .int, true⟩ := by
  have accepted : ∃ r, paddedSection.resource "users" = .ok r := ⟨_, rfl⟩
  obtain ⟨r, made⟩ := accepted
  obtain ⟨_, _, size, _, orders⟩ := section_mappings made
  have collide : ¬paddedSection.Distinct := by decide
  have first : ("id", ⟨"usr.id", .int, true⟩) ∈ paddedSection.mappings.entries := by decide
  exact ⟨r, made, fun same => collide (size.mp same), orders _ first⟩

end ScimQuery
