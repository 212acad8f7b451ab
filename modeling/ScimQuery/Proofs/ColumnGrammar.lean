import Mathlib.Computability.Language
import ScimQuery.Proofs.ColumnName
import ScimQuery.Text.Letters

/-!
# The grammar of column names

A column name is one segment or several ones joined by single dots, and a segment is a letter or an
underscore with letters, digits and underscores behind it, all of them ASCII. `isColumnName` accepts
just these texts (`columnName_grammar`), which as a regular expression are
`[A-Za-z_][A-Za-z0-9_]*(\.[A-Za-z_][A-Za-z0-9_]*)*`.
-/

namespace ScimQuery

/-! ### Segments -/

/-- An ASCII letter or an underscore. -/
def StartsSegment (c : Char) : Prop := ('A' ≤ c ∧ c ≤ 'Z') ∨ ('a' ≤ c ∧ c ≤ 'z') ∨ c = '_'

def ContinuesSegment (c : Char) : Prop := StartsSegment c ∨ ('0' ≤ c ∧ c ≤ '9')

inductive Segment : List Char → Prop where
  | mk {first rest} (starts : StartsSegment first) (continues : ∀ c ∈ rest, ContinuesSegment c) :
      Segment (first :: rest)

theorem isAlpha_or_underscore {c : Char} : (c.isAlpha || c = '_') = true ↔ StartsSegment c := by
  change (decide ('A' ≤ c ∧ c ≤ 'Z') || (decide ('a' ≤ c) && decide (c ≤ 'z')) ||
    decide (c = '_')) = true ↔ _
  simp only [StartsSegment, Bool.or_eq_true, Bool.and_eq_true, decide_eq_true_eq, or_assoc]

theorem isAlphanum_or_underscore {c : Char} :
    (c.isAlphanum || c = '_') = true ↔ ContinuesSegment c := by
  rw [ContinuesSegment, ← isAlpha_or_underscore]
  change (c.isAlpha || (decide ('0' ≤ c) && decide (c ≤ '9')) || decide (c = '_')) = true ↔ _
  simp only [Bool.or_eq_true, Bool.and_eq_true, decide_eq_true_eq, or_right_comm]

theorem isIdentifier_iff {cs : List Char} : isIdentifier cs = true ↔ Segment cs := by
  cases cs with
  | nil => exact iff_of_false Bool.false_ne_true (by rintro ⟨⟩)
  | cons first rest =>
    rw [isIdentifier, Bool.and_eq_true, isAlpha_or_underscore, List.all_eq_true]
    simp only [isAlphanum_or_underscore]
    constructor
    · rintro ⟨starts, continues⟩
      exact .mk starts continues
    · rintro ⟨starts, continues⟩
      exact ⟨starts, continues⟩

theorem ContinuesSegment.ne_dot {c : Char} (h : ContinuesSegment c) : c ≠ '.' := by
  rintro rfl
  exact absurd (isAlphanum_or_underscore.mpr h) (by decide)

theorem Segment.undotted {cs : List Char} (h : Segment cs) : '.' ∉ cs := by
  obtain ⟨starts, continues⟩ := h
  intro member
  rcases List.mem_cons.mp member with same | later
  · exact ContinuesSegment.ne_dot (.inl starts) same.symm
  · exact (continues _ later).ne_dot rfl

/-! ### Segments joined by dots -/

theorem dotted_eq_splitOn (cs : List Char) : dotted cs = cs.splitOn '.' := by
  fun_induction dotted cs with
  | case1 => rfl
  | case2 cs ih => simp [List.splitOn_cons_eq_if_modifyHead, ih]
  | case3 c cs _ empty ih => exact absurd (ih.symm.trans empty) (List.splitOn_ne_nil _ _)
  | case4 c cs plain part parts split ih =>
    rw [List.splitOn_cons_eq_if_modifyHead, ← ih, split, if_neg (by simpa using plain)]
    rfl

theorem isColumnName_iff_segments {s : String} :
    isColumnName s = true ↔ ∃ segments : List (List Char), segments ≠ [] ∧
      (∀ g ∈ segments, Segment g) ∧ s.toList = ['.'].intercalate segments := by
  simp only [isColumnName, dotted_eq_splitOn, List.all_eq_true, isIdentifier_iff]
  constructor
  · intro named
    exact ⟨_, List.splitOn_ne_nil _ _, named, (List.intercalate_splitOn '.').symm⟩
  · rintro ⟨segments, some, named, joined⟩
    rwa [joined, List.splitOn_intercalate '.' (fun g member => (named g member).undotted) some]

/-- A dot stands between two column names. -/
theorem isColumnName_of_dot {s : String} {before behind : List Char}
    (dot : s.toList = before ++ '.' :: behind) :
    isColumnName s =
      (isColumnName (String.ofList before) && isColumnName (String.ofList behind)) := by
  simp only [isColumnName, dotted_eq_splitOn, dot, List.splitOn_append_cons_self,
    List.all_append, String.toList_ofList]

/-! ### As a regular expression -/

open scoped Computability

/-- The texts of one character of a kind. -/
def oneOf (kind : Char → Prop) : Language Char := {text | ∃ c, kind c ∧ text = [c]}

/-- `[A-Za-z_][A-Za-z0-9_]*` -/
def segmentLanguage : Language Char := oneOf StartsSegment * (oneOf ContinuesSegment)∗

/-- `[A-Za-z_][A-Za-z0-9_]*(\.[A-Za-z_][A-Za-z0-9_]*)*` -/
def columnLanguage : Language Char := segmentLanguage * (oneOf (· = '.') * segmentLanguage)∗

theorem mem_oneOf {kind : Char → Prop} {text : List Char} :
    text ∈ oneOf kind ↔ ∃ c, kind c ∧ text = [c] := Iff.rfl

theorem mem_kstar_oneOf {kind : Char → Prop} {text : List Char} :
    text ∈ (oneOf kind)∗ ↔ ∀ c ∈ text, kind c := by
  rw [Language.mem_kstar]
  constructor
  · rintro ⟨parts, rfl, single⟩ c member
    obtain ⟨part, present, found⟩ := List.mem_flatten.mp member
    obtain ⟨d, right, rfl⟩ := single part present
    rwa [List.mem_singleton.mp found]
  · intro right
    refine ⟨text.map fun c => [c], (List.flatMap_singleton' text).symm, ?_⟩
    intro part present
    obtain ⟨c, member, rfl⟩ := List.mem_map.mp present
    exact ⟨c, right c member, rfl⟩

theorem mem_segmentLanguage {text : List Char} : text ∈ segmentLanguage ↔ Segment text := by
  simp only [segmentLanguage, Language.mem_mul, mem_oneOf, mem_kstar_oneOf]
  constructor
  · rintro ⟨_, ⟨first, starts, rfl⟩, rest, continues, rfl⟩
    exact .mk starts continues
  · rintro ⟨starts, continues⟩
    exact ⟨_, ⟨_, starts, rfl⟩, _, continues, rfl⟩

theorem mem_dot_segmentLanguage {text : List Char} :
    text ∈ oneOf (· = '.') * segmentLanguage ↔ ∃ g, Segment g ∧ text = '.' :: g := by
  simp only [Language.mem_mul, mem_oneOf, mem_segmentLanguage]
  constructor
  · rintro ⟨_, ⟨_, rfl, rfl⟩, g, named, rfl⟩
    exact ⟨g, named, rfl⟩
  · rintro ⟨g, named, rfl⟩
    exact ⟨['.'], ⟨'.', rfl, rfl⟩, g, named, rfl⟩

theorem mem_kstar_dot_segmentLanguage {text : List Char} :
    text ∈ (oneOf (· = '.') * segmentLanguage)∗ ↔
      ∃ gs : List (List Char), (∀ g ∈ gs, Segment g) ∧ text = gs.flatMap ('.' :: ·) := by
  simp only [Language.mem_kstar, mem_dot_segmentLanguage]
  constructor
  · rintro ⟨parts, rfl, behindDots⟩
    -- Each part is a dot and a segment, so the segments are the tails of the parts.
    refine ⟨parts.map List.tail, ?_, ?_⟩
    · intro g member
      obtain ⟨part, present, rfl⟩ := List.mem_map.mp member
      obtain ⟨g, named, rfl⟩ := behindDots part present
      exact named
    · have same : ∀ part ∈ parts, '.' :: part.tail = part := by
        intro part present
        obtain ⟨g, named, rfl⟩ := behindDots part present
        rfl
      rw [List.flatMap_map, List.flatMap_def, List.map_congr_left same, List.map_id']
  · rintro ⟨gs, named, rfl⟩
    refine ⟨gs.map ('.' :: ·), rfl, ?_⟩
    intro part present
    obtain ⟨g, member, rfl⟩ := List.mem_map.mp present
    exact ⟨g, named g member, rfl⟩

theorem intercalate_cons (g : List Char) (gs : List (List Char)) :
    ['.'].intercalate (g :: gs) = g ++ gs.flatMap ('.' :: ·) := by
  induction gs generalizing g with
  | nil => simp
  | cons h gs ih => simp [List.intercalate_cons_of_ne_nil, ih]

theorem mem_columnLanguage {text : List Char} :
    text ∈ columnLanguage ↔ ∃ segments : List (List Char), segments ≠ [] ∧
      (∀ g ∈ segments, Segment g) ∧ text = ['.'].intercalate segments := by
  simp only [columnLanguage, Language.mem_mul, mem_segmentLanguage, mem_kstar_dot_segmentLanguage]
  constructor
  · rintro ⟨g, first, _, ⟨gs, rest, rfl⟩, rfl⟩
    exact ⟨g :: gs, by simp, List.forall_mem_cons.mpr ⟨first, rest⟩, (intercalate_cons g gs).symm⟩
  · rintro ⟨gs, some, named, rfl⟩
    obtain ⟨g, gs, rfl⟩ := List.exists_cons_of_ne_nil some
    obtain ⟨first, rest⟩ := List.forall_mem_cons.mp named
    exact ⟨g, first, _, ⟨gs, rest, rfl⟩, (intercalate_cons g gs).symm⟩

/-! ### What no column name has -/

/-- Signs that end a text or a name in SQL, or a line. -/
def foreignSigns : List Char := ['"', '\'', '`', '?', '(', ')', '\n', '\r']

/-- What the characters of a column name are, and where dots do not stand in it. -/
structure CleanName (text : List Char) : Prop where
  filled : text ≠ []
  noDotFirst : text.head? ≠ some '.'
  noDotLast : text.getLast? ≠ some '.'
  noTwoDots : ¬ ['.', '.'] <:+: text
  ascii : ∀ c ∈ text, c.toNat < 128
  solid : ∀ c ∈ text, Text.isBlank c = false
  plain : ∀ c ∈ text, c ∉ foreignSigns

theorem ContinuesSegment.toNat_bounds {c : Char} (h : ContinuesSegment c) :
    (48 ≤ c.toNat ∧ c.toNat ≤ 57) ∨ (65 ≤ c.toNat ∧ c.toNat ≤ 122) := by
  rcases h with (upper | lower | rfl) | digit
  · change 65 ≤ c.toNat ∧ c.toNat ≤ 90 at upper
    omega
  · change 97 ≤ c.toNat ∧ c.toNat ≤ 122 at lower
    omega
  · decide
  · exact .inl digit

theorem isNameChar_toNat {c : Char} (h : isNameChar c = true) :
    c.toNat = 46 ∨ (48 ≤ c.toNat ∧ c.toNat ≤ 57) ∨ (65 ≤ c.toNat ∧ c.toNat ≤ 122) := by
  rcases Bool.or_eq_true_iff.mp h with inside | dot
  · exact .inr (isAlphanum_or_underscore.mp inside).toNat_bounds
  · obtain rfl := of_decide_eq_true dot
    exact .inl rfl

theorem isNameChar_solid {c : Char} (h : isNameChar c = true) : Text.isBlank c = false := by
  have places := isNameChar_toNat h
  simp only [Text.isBlank, Text.inRanges, Text.blankRanges, List.any_cons, List.any_nil,
    Bool.or_eq_false_iff, Bool.and_eq_false_iff, decide_eq_false_iff_not, and_true]
  omega

theorem isNameChar_not_foreign {c : Char} (h : isNameChar c = true) : c ∉ foreignSigns := by
  have foreign : foreignSigns.all (!isNameChar ·) = true := by decide
  intro member
  have none := List.all_eq_true.mp foreign c member
  rw [h] at none
  cases none

theorem sides_of_columnName {s : String} (named : isColumnName s = true) (before : List Char)
    {behind : List Char} (dot : s.toList = before ++ '.' :: behind) :
    isColumnName (String.ofList before) = true ∧ isColumnName (String.ofList behind) = true := by
  rwa [isColumnName_of_dot dot, Bool.and_eq_true] at named

theorem columnName_clean {s : String} (named : isColumnName s = true) : CleanName s.toList where
  filled := columnName_nonempty named
  noDotFirst first := by
    obtain ⟨rest, dot⟩ := List.head?_eq_some_iff.mp first
    exact columnName_nonempty (sides_of_columnName named [] dot).1 rfl
  noDotLast last := by
    obtain ⟨front, dot⟩ := List.getLast?_eq_some_iff.mp last
    exact columnName_nonempty (sides_of_columnName named front dot).2 rfl
  noTwoDots := by
    rintro ⟨before, behind, dots⟩
    have dot : s.toList = before ++ '.' :: '.' :: behind := by simp [← dots]
    have second := (sides_of_columnName named before dot).2
    exact columnName_nonempty (sides_of_columnName second [] String.toList_ofList).1 rfl
  ascii c member := by
    have places := isNameChar_toNat (columnName_chars named c member)
    omega
  solid c member := isNameChar_solid (columnName_chars named c member)
  plain c member := isNameChar_not_foreign (columnName_chars named c member)

/-- Column names are the texts of the grammar, none of them has anything that could end a name in a
query, and two texts joined by a dot are a column name exactly when both are one. -/
theorem columnName_grammar (s t : String) :
    (isColumnName s = true ↔ ∃ segments : List (List Char), segments ≠ [] ∧
      (∀ g ∈ segments, Segment g) ∧ s.toList = ['.'].intercalate segments) ∧
    (isColumnName s = true ↔ s.toList ∈ columnLanguage) ∧
    (isColumnName s = true → CleanName s.toList) ∧
    (isColumnName (s ++ "." ++ t) = true ↔ isColumnName s = true ∧ isColumnName t = true) := by
  refine ⟨isColumnName_iff_segments, ?_, columnName_clean, ?_⟩
  · rw [isColumnName_iff_segments, mem_columnLanguage]
  · have dot : (s ++ "." ++ t).toList = s.toList ++ '.' :: t.toList := by simp
    rw [isColumnName_of_dot dot, Bool.and_eq_true, String.ofList_toList, String.ofList_toList]

/-- `msg.id` is a column name, and `msg.id.2nd` is none. -/
theorem messageColumn_grammar :
    isColumnName "msg.id" = true ∧ "msg.id".toList ∈ columnLanguage ∧
      CleanName "msg.id".toList ∧ isColumnName ("msg.id" ++ "." ++ "2nd") = false := by
  obtain ⟨_, language, clean, joined⟩ := columnName_grammar "msg.id" "2nd"
  have named : isColumnName "msg.id" = true := by decide
  have digit : isColumnName "2nd" = false := by decide
  refine ⟨named, language.mp named, clean named, ?_⟩
  rw [Bool.eq_false_iff, ne_eq, joined, digit]
  simp

end ScimQuery
