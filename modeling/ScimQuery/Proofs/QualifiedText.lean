import ScimQuery.Proofs.Compilation
import ScimQuery.Proofs.DefaultOrder

/-!
# Texts of qualified paths

An attribute is read by its dots alone. So the text of a path with a schema is refused for its dots,
never for its schema; and when it is read, the attribute is not the one of the path.
`qualified_text_read` says when this happens and what it does to mappings and orders.
-/

namespace ScimQuery

/-! ### Dots -/

theorem Text.count_trim {c : Char} (solid : isBlank c = false) (text : List Char) :
    (trim text).count c = text.count c := by
  have front : ∀ cs : List Char, (cs.dropWhile isBlank).count c = cs.count c := by
    intro cs
    have blanks : (cs.takeWhile isBlank).count c = 0 := by
      refine List.count_eq_zero.mpr fun member => ?_
      rw [List.mem_takeWhile_imp member] at solid
      cases solid
    have whole := congrArg (List.count c) (List.takeWhile_append_dropWhile (p := isBlank) (l := cs))
    rw [List.count_append, blanks, Nat.zero_add] at whole
    exact whole
  rw [trim, List.count_reverse, front, List.count_reverse, front]

namespace Attribute

variable {s : String} {a : Attribute}

/-- A text is the text of plain parts: it has at most one dot, and none at its ends. -/
structure Parted (text : List Char) : Prop where
  filled : text ≠ []
  single : text.count '.' ≤ 1
  first : text.head? ≠ some '.'
  last : text.getLast? ≠ some '.'

theorem parted_one {text : List Char} (filled : text ≠ []) (undotted : '.' ∉ text) :
    Parted text where
  filled := filled
  single := by simp [List.count_eq_zero.mpr undotted]
  first := fun dot => undotted (List.mem_of_mem_head? dot)
  last := fun dot => undotted (List.mem_of_getLast? dot)

theorem parted_two {front back : List Char} (frontFilled : front ≠ []) (backFilled : back ≠ [])
    (frontUndotted : '.' ∉ front) (backUndotted : '.' ∉ back) : Parted (front ++ '.' :: back) where
  filled := by simp
  single := by
    simp [List.count_append, List.count_eq_zero.mpr frontUndotted,
      List.count_eq_zero.mpr backUndotted]
  first := by
    rw [List.head?_append_of_ne_nil _ frontFilled]
    exact (parted_one frontFilled frontUndotted).first
  last := by
    have ending : front ++ '.' :: back = (front ++ ['.']) ++ back := by simp
    rw [ending, List.getLast?_append_of_ne_nil _ backFilled]
    exact (parted_one backFilled backUndotted).last

theorem Plain.parted (plain : a.Plain) : Parted a.text.toList := by
  obtain ⟨name, sub?⟩ := a
  obtain ⟨⟨filled, undotted⟩, subPart⟩ := plain
  have nameFilled : name.toList ≠ [] := by simpa using filled
  cases sub? with
  | none => exact parted_one nameFilled undotted
  | some sub =>
    obtain ⟨subFilled, subUndotted⟩ := subPart sub rfl
    have subFilled : sub.toList ≠ [] := by simpa using subFilled
    simpa [text] using parted_two nameFilled subFilled undotted subUndotted

theorem Parted.exists_plain {text : List Char} (parted : Parted text) :
    ∃ a : Attribute, a.Plain ∧ a.text.toList = text := by
  obtain ⟨filled, single, first, last⟩ := parted
  by_cases dotted : '.' ∈ text
  · obtain ⟨front, back, rfl⟩ := List.append_of_mem dotted
    rw [List.count_append, List.count_cons_self] at single
    have frontUndotted : '.' ∉ front := List.count_eq_zero.mp (by omega)
    have backUndotted : '.' ∉ back := List.count_eq_zero.mp (by omega)
    have frontFilled : front ≠ [] := by
      rintro rfl
      exact first rfl
    have backFilled : back ≠ [] := by
      rintro rfl
      exact last (by simp)
    refine ⟨⟨String.ofList front, some (String.ofList back)⟩, ⟨⟨?_, ?_⟩, ?_⟩, ?_⟩
    · simpa using frontFilled
    · simpa using frontUndotted
    · rintro _ ⟨⟩
      exact ⟨by simpa using backFilled, by simpa using backUndotted⟩
    · simp [Attribute.text]
  · refine ⟨⟨String.ofList text, none⟩, ⟨⟨?_, ?_⟩, ?_⟩, ?_⟩
    · simpa using filled
    · simpa using dotted
    · rintro _ ⟨⟩
    · simp [Attribute.text]

/-- A text is read as an attribute if and only if it is parted, but for the blanks around it. -/
theorem exists_parse_iff : (∃ a, parse s = .ok a) ↔ Parted (Text.trim s.toList) := by
  simp only [parse_ok_iff]
  constructor
  · rintro ⟨a, plain, same⟩
    exact same ▸ plain.parted
  · exact Parted.exists_plain

/-! ### Colons -/

/-- The path of an attribute in a schema. -/
def inSchema (b : Attribute) (schema : String) : AttributePath :=
  { toAttribute := b, schema := some schema }

theorem text_inSchema (b : Attribute) (schema : String) :
    (b.inSchema schema).text = schema ++ ":" ++ b.text := rfl

/-- The colon behind the schema stays in what is read. -/
theorem ne_of_parse_inSchema {b : Attribute} {schema : String}
    (read : parse (b.inSchema schema).text = .ok a) : a ≠ b := by
  rintro rfl
  have colons := congrArg (List.count ':') (text_of_parse read)
  rw [Text.count_trim (by decide), text_inSchema] at colons
  simp only [String.toList_append, List.count_append] at colons
  have colon : ":".toList.count ':' = 1 := by decide
  omega

theorem exists_error_iff {b : Attribute} {schema : String} :
    (∃ e, parse (b.inSchema schema).text = .error e) ↔
      2 ≤ (b.inSchema schema).text.toList.count '.' ∨
        (Text.trim (b.inSchema schema).text.toList).head? = some '.' ∨
        (Text.trim (b.inSchema schema).text.toList).getLast? = some '.' := by
  have filled : Text.trim (b.inSchema schema).text.toList ≠ [] := by
    intro blank
    have colons := Text.count_trim (c := ':') (by decide) (b.inSchema schema).text.toList
    rw [blank, text_inSchema] at colons
    simp at colons
  have dots := Text.count_trim (c := '.') (by decide) (b.inSchema schema).text.toList
  have refused : (∃ e, parse (b.inSchema schema).text = .error e) ↔
      ¬∃ a, parse (b.inSchema schema).text = .ok a := by
    cases parse (b.inSchema schema).text <;> simp
  rw [refused, exists_parse_iff, ← dots]
  constructor
  · intro unparted
    by_contra none
    simp only [not_or] at none
    exact unparted ⟨filled, by omega, none.2.1, none.2.2⟩
  · rintro (many | first | last) parted
    · exact absurd parted.single (by omega)
    · exact parted.first first
    · exact parted.last last

end Attribute

/-! ### Mappings and orders under qualified texts -/

section Qualified

variable {b : Attribute} {schema name : String} {s : Section} {r : Resource}

theorem Section.exists_qualified_mapping (made : s.resource name = .ok r) {c : Column}
    (given : ((b.inSchema schema).text, c) ∈ s.mappings.entries) :
    ∃ a c', Attribute.parse (b.inSchema schema).text = .ok a ∧ a ≠ b ∧
      (a, c') ∈ r.table.entries := by
  obtain ⟨built, _⟩ := resource_ok_iff.mp made
  obtain ⟨a, read⟩ := exists_attribute built given
  obtain ⟨c', last⟩ := exists_last?_iff.mpr ⟨c, _, given, read⟩
  rw [← get?_table built] at last
  exact ⟨a, c', read, Attribute.ne_of_parse_inSchema read, Dictionary.get?_eq_some_iff.mp last⟩

/-- The path itself stands on a column that is given under another text. -/
theorem Section.resolve_inSchema (made : s.resource name = .ok r) {c : Column}
    (found : r.table.resolve (b.inSchema schema).toAttribute none = .ok c) :
    ∃ text, text ≠ (b.inSchema schema).text ∧ (text, c) ∈ s.mappings.entries ∧
      Attribute.parse text = .ok b := by
  obtain ⟨built, _⟩ := resource_ok_iff.mp made
  obtain ⟨text, given, read⟩ := maps_of_last? ((resolve_table_iff built).mp found)
  refine ⟨text, ?_, given, read⟩
  rintro rfl
  exact Attribute.ne_of_parse_inSchema read rfl

theorem Section.exists_qualified_order (made : s.resource name = .ok r)
    (given : s.orderBy = some (b.inSchema schema).text) :
    ∃ a, Attribute.parse (b.inSchema schema).text = .ok a ∧ a ≠ b ∧ r.orderBy = some a := by
  obtain ⟨_, order, _⟩ := resource_ok_iff.mp made
  rw [orderAttribute_ok_iff, given] at order
  obtain ⟨a, read, same⟩ := order
  exact ⟨a, read, Attribute.ne_of_parse_inSchema read, same⟩

end Qualified

/-- The text of a path with a schema is refused when it has two dots, or one at either end, and only
then. Otherwise it is read as another attribute than the one of the path: a mapping or an order under
such a text is accepted for that attribute, and the path itself is not found through it. -/
theorem qualified_text_read (b : Attribute) (schema : String) :
    ((∃ e, Attribute.parse (b.inSchema schema).text = .error e) ↔
      2 ≤ (b.inSchema schema).text.toList.count '.' ∨
        (Text.trim (b.inSchema schema).text.toList).head? = some '.' ∨
        (Text.trim (b.inSchema schema).text.toList).getLast? = some '.') ∧
    (∀ a, Attribute.parse (b.inSchema schema).text = .ok a →
      a ≠ b ∧ a.text.toList = Text.trim (b.inSchema schema).text.toList) ∧
    (∀ (s : Section) name r, s.resource name = .ok r →
      (∀ c, ((b.inSchema schema).text, c) ∈ s.mappings.entries →
        ∃ a c', Attribute.parse (b.inSchema schema).text = .ok a ∧ a ≠ b ∧
          (a, c') ∈ r.table.entries) ∧
      (∀ c, r.table.resolve (b.inSchema schema).toAttribute none = .ok c →
        ∃ text, text ≠ (b.inSchema schema).text ∧ (text, c) ∈ s.mappings.entries ∧
          Attribute.parse text = .ok b) ∧
      (s.orderBy = some (b.inSchema schema).text →
        ∃ a, Attribute.parse (b.inSchema schema).text = .ok a ∧ a ≠ b ∧ r.orderBy = some a)) ∧
    ∀ (r : Resource) column, r.sortColumn (some (b.inSchema schema).text) = .ok column →
      ∃ a c, Attribute.parse (b.inSchema schema).text = .ok a ∧ a ≠ b ∧
        (a, c) ∈ r.table.entries ∧ c.sortable = true ∧ c.column = column := by
  refine ⟨Attribute.exists_error_iff, fun a read => ?_, fun s name r made => ⟨?_, ?_, ?_⟩,
    fun r column found => ?_⟩
  · exact ⟨Attribute.ne_of_parse_inSchema read, Attribute.text_of_parse read⟩
  · exact fun c given => Section.exists_qualified_mapping made given
  · exact fun c found => Section.resolve_inSchema made found
  · exact fun given => Section.exists_qualified_order made given
  · obtain ⟨a, c, read, mapped⟩ := Resource.sortColumn_some_ok_iff.mp found
    exact ⟨a, c, read, Attribute.ne_of_parse_inSchema read, mapped⟩

/-- The only dot of the text stands in the version number of the schema. -/
def userEmails : AttributePath :=
  { name := "emails", schema := some "urn:ietf:params:scim:schemas:core:2.0:User" }

def emailSection : Section where
  mappings := .ofList [("urn:ietf:params:scim:schemas:core:2.0:User:emails",
    ⟨"eml.value", .string, true⟩)]
  orderBy := some "urn:ietf:params:scim:schemas:core:2.0:User:emails"

/-- The text is accepted for a mapping and for orders, and the path is not mapped. -/
theorem userEmails_accepted :
    userEmails.text = "urn:ietf:params:scim:schemas:core:2.0:User:emails" ∧
    Attribute.parse userEmails.text =
      .ok { name := "urn:ietf:params:scim:schemas:core:2", sub := some "0:User:emails" } ∧
    ∃ r, emailSection.resource "users" = .ok r ∧ r.check "users" = .ok () ∧
      r.orderBy =
        some { name := "urn:ietf:params:scim:schemas:core:2", sub := some "0:User:emails" } ∧
      r.sortColumn (some userEmails.text) = .ok "eml.value" ∧
      (Query.compile (some (.condition ⟨userEmails, .pr, none⟩)) r.table ⟨"eml.value", .asc⟩
        ⟨0, 10⟩ "").result = .error (.unmapped "emails") := by
  refine ⟨rfl, rfl, _, rfl, rfl, rfl, rfl, rfl⟩

end ScimQuery
