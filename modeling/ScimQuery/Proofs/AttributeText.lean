import Mathlib.Data.List.DropRight
import ScimQuery.Attribute
import ScimQuery.Proofs.Outcome

/-!
# Attributes as texts

An attribute is read from its own text again, with blanks around it or without, unless a part of it
is empty or holds a dot, or a blank stands at one of its ends. `attribute_text_round_trip` says
exactly which attributes come back.
-/

namespace ScimQuery

/-! ### Trimmed texts -/

namespace Text

/-- No blank stands at either end. -/
def Trimmed (text : List Char) : Prop :=
  (∀ c ∈ text.head?, isBlank c = false) ∧ ∀ c ∈ text.getLast?, isBlank c = false

theorem trim_eq (text : List Char) : trim text = (text.dropWhile isBlank).rdropWhile isBlank := rfl

theorem trimmed_trim (text : List Char) : Trimmed (trim text) := by
  rw [trim_eq]
  constructor
  · intro c first
    -- What is dropped at the end leaves the first character, unless it leaves nothing.
    have whole : c ∈ (text.dropWhile isBlank).head? := by
      obtain ⟨dropped, same⟩ := List.rdropWhile_prefix isBlank (l := text.dropWhile isBlank)
      rw [← same]
      exact List.mem_head?_append_of_mem_head? first
    have stopped := List.head?_dropWhile_not isBlank text
    rw [whole] at stopped
    exact stopped
  · intro c last
    have present : (text.dropWhile isBlank).rdropWhile isBlank ≠ [] := by
      rintro empty
      rw [empty] at last
      cases last
    have stopped := List.rdropWhile_last_not isBlank _ present
    rw [List.getLast?_eq_some_getLast present] at last
    obtain rfl := Option.some.inj last
    simpa using stopped

theorem trim_eq_self_iff {text : List Char} : trim text = text ↔ Trimmed text := by
  constructor
  · intro same
    rw [← same]
    exact trimmed_trim text
  · rintro ⟨first, last⟩
    have front : text.dropWhile isBlank = text := by
      cases text with
      | nil => rfl
      | cons c cs => exact List.dropWhile_cons_of_neg (by simp [first c rfl])
    rw [trim_eq, front, List.rdropWhile_eq_self_iff]
    intro present
    simp [last _ (List.getLast?_eq_some_getLast present)]

theorem trim_trim (text : List Char) : trim (trim text) = trim text :=
  trim_eq_self_iff.mpr (trimmed_trim text)

end Text

/-! ### Attributes that are read -/

namespace Attribute

variable {s s' : String} {a b : Attribute}

/-- A part of an attribute: not empty, and without a dot. -/
def IsPart (s : String) : Prop := s ≠ "" ∧ '.' ∉ s.toList

/-- The name is a part, and so is the sub-attribute if there is one. -/
def Plain (a : Attribute) : Prop := IsPart a.name ∧ ∀ sub ∈ a.sub, IsPart sub

theorem not_dot_of_isPart (h : IsPart s) : ∀ c ∈ s.toList, decide (c ≠ '.') = true := by
  intro c member
  exact decide_eq_true fun same => h.2 (same ▸ member)

/-- What a text is read as: the attribute of plain parts whose text it is, but for the blanks. -/
theorem parse_ok_iff : parse s = .ok a ↔ a.Plain ∧ a.text.toList = Text.trim s.toList := by
  constructor
  · intro h
    unfold parse at h
    generalize Text.trim s.toList = text at h ⊢
    have whole := List.takeWhile_append_dropWhile (p := (· ≠ '.')) (l := text)
    have undotted : '.' ∉ text.takeWhile (· ≠ '.') := by
      intro member
      simpa using List.mem_takeWhile_imp member
    cases behind : text.dropWhile (· ≠ '.') with
    | nil =>
      rw [behind, List.append_nil] at whole
      simp only [behind] at h
      split at h
      · cases h
      · next filled =>
        obtain rfl := Except.ok.inj h
        refine ⟨⟨⟨?_, ?_⟩, nofun⟩, ?_⟩
        · simpa using filled
        · simpa using undotted
        · simpa [Attribute.text] using whole
    | cons dot sub =>
      have isDot : dot = '.' := by
        have stopped := List.head?_dropWhile_not (· ≠ '.') text
        rw [behind] at stopped
        simpa using stopped
      rw [behind, isDot] at whole
      simp only [behind] at h
      split at h
      · cases h
      · next filled =>
        obtain rfl := Except.ok.inj h
        simp only [Bool.or_eq_true, not_or, List.isEmpty_iff, List.contains_iff_mem] at filled
        refine ⟨⟨⟨?_, ?_⟩, ?_⟩, ?_⟩
        · simpa using filled.1.1
        · simpa using undotted
        · rintro _ ⟨⟩
          exact ⟨by simpa using filled.1.2, by simpa using filled.2⟩
        · simpa [Attribute.text] using whole
  · rintro ⟨⟨part, subPart⟩, text⟩
    have name := not_dot_of_isPart part
    obtain ⟨filled, _⟩ := part
    unfold parse
    rw [← text]
    obtain ⟨nameText, _ | sub⟩ := a
    · simp only [Attribute.text, List.takeWhile_eq_self_iff.mpr name,
        List.dropWhile_eq_nil_iff.mpr name, String.ofList_toList]
      simpa using filled
    · obtain ⟨subFilled, undotted⟩ := subPart sub rfl
      simp only [Attribute.text, String.toList_append, List.append_assoc]
      rw [List.takeWhile_append_of_pos name, List.dropWhile_append_of_pos name]
      simp [filled, subFilled, undotted]

theorem text_of_parse (h : parse s = .ok a) : a.text.toList = Text.trim s.toList :=
  (parse_ok_iff.mp h).2

theorem parse_congr (same : Text.trim s.toList = Text.trim s'.toList) : parse s = parse s' := by
  unfold parse
  rw [same]

theorem eq_iff_of_parse (ha : parse s = .ok a) (hb : parse s' = .ok b) :
    a = b ↔ Text.trim s.toList = Text.trim s'.toList := by
  constructor
  · intro same
    rw [← text_of_parse ha, ← text_of_parse hb, same]
  · intro same
    rw [parse_congr same, hb] at ha
    exact (Except.ok.inj ha).symm

theorem text_inj (ha : parse s = .ok a) (hb : parse s' = .ok b) (same : a.text = b.text) :
    a = b := by
  apply (eq_iff_of_parse ha hb).mpr
  rw [← text_of_parse ha, ← text_of_parse hb, same]

/-- An attribute is read from its own text if its parts are plain and no blank would be dropped. -/
theorem parse_text_iff : parse a.text = .ok a ↔ a.Plain ∧ Text.Trimmed a.text.toList := by
  rw [parse_ok_iff, eq_comm, Text.trim_eq_self_iff]

theorem parse_text_of_parse (h : parse s = .ok a) : parse a.text = .ok a := by
  rw [parse_ok_iff, text_of_parse h, Text.trim_trim]
  exact ⟨(parse_ok_iff.mp h).1, rfl⟩

end Attribute

/-- A path that is read from a text has no schema; its text is the text it was read from without
the blanks around it, and reads as the same path. Of all paths without schema exactly those come
back from their texts whose parts are not empty and hold no dot and whose texts have no blank at
either end; so attributes that were read are told apart by their texts. -/
theorem attribute_text_round_trip :
    (∀ s a, Attribute.parse s = .ok a →
      ∃ p : AttributePath, p.toAttribute = a ∧ p.schema = none ∧
        p.text = String.ofList (Text.trim s.toList) ∧ Attribute.parse p.text = .ok p.toAttribute) ∧
    (∀ p : AttributePath, p.schema = none →
      (Attribute.parse p.text = .ok p.toAttribute ↔
        (p.name ≠ "" ∧ '.' ∉ p.name.toList) ∧
        (∀ sub, p.sub = some sub → sub ≠ "" ∧ '.' ∉ sub.toList) ∧
        (∀ c, p.text.toList.head? = some c → Text.isBlank c = false) ∧
        ∀ c, p.text.toList.getLast? = some c → Text.isBlank c = false)) ∧
    ∀ s s' a b, Attribute.parse s = .ok a → Attribute.parse s' = .ok b → a.text = b.text → a = b := by
  refine ⟨fun s a read => ?_, fun p plain => ?_, fun s s' a b read read' same => ?_⟩
  · have text : a.text = String.ofList (Text.trim s.toList) := by
      rw [← Attribute.text_of_parse read, String.ofList_toList]
    exact ⟨{ toAttribute := a }, rfl, rfl, text, Attribute.parse_text_of_parse read⟩
  · have text : p.text = p.toAttribute.text := by
      rw [AttributePath.text, plain]
    rw [text, Attribute.parse_text_iff]
    exact and_assoc
  · exact Attribute.text_inj read read' same

/-- Blanks next to the dot stay, those at the ends do not; a name with a blank behind it does not
come back. -/
theorem paddedText_round_trip :
    Attribute.parse "\t name. given\u00a0" = .ok { name := "name", sub := some " given" } ∧
    (∃ p : AttributePath, p.toAttribute = { name := "name", sub := some " given" } ∧
      p.schema = none ∧ p.text = "name. given" ∧ Attribute.parse p.text = .ok p.toAttribute) ∧
    Attribute.parse ({ name := "id " } : AttributePath).text ≠ .ok { name := "id " } := by
  obtain ⟨texts, paths, _⟩ := attribute_text_round_trip
  have read : Attribute.parse "\t name. given\u00a0" =
    .ok { name := "name", sub := some " given" } := by rfl
  have blank : Attribute.parse ({ name := "id " } : AttributePath).text ≠ .ok { name := "id " } := by
    intro back
    obtain ⟨_, _, _, last⟩ := (paths { name := "id " } rfl).mp back
    exact absurd (last ' ' (by rfl)) (by decide)
  have trimmed : String.ofList (Text.trim "\t name. given\u00a0".toList) = "name. given" := by
    decide +kernel
  have back := texts _ _ read
  rw [trimmed] at back
  exact ⟨read, back, blank⟩

end ScimQuery
