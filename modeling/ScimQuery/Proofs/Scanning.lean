import Mathlib.Data.List.TakeWhile
import Mathlib.Tactic.IntervalCases
import ScimQuery.Json.Reader
import ScimQuery.Json

/-!
# Scanned words

What the scanner makes of written texts and whole numbers. Every text reads back as it is
(`scanString_written`), and so do the whole numbers of 64 bits with and without sign
(`scanNumber_natural`, `scanNumber_negative`).
-/

namespace ScimQuery.Json

/-! ### Blanks -/

theorem skipSpace_cons {c : Char} (solid : isSpace c = false) (text : List Char) :
    skipSpace (c :: text) = c :: text := by
  simp [skipSpace, solid]

/-- Nothing but JSON white space. -/
def Blanks (text : List Char) : Prop := ∀ c ∈ text, isSpace c = true

theorem skipSpace_append {blanks : List Char} (blank : Blanks blanks) (text : List Char) :
    skipSpace (blanks ++ text) = skipSpace text := by
  rw [skipSpace, List.dropWhile_append_of_pos blank, skipSpace]

theorem skipSpace_eq_nil {text : List Char} : skipSpace text = [] ↔ Blanks text :=
  List.dropWhile_eq_nil_iff

theorem exists_blanks_append_skipSpace (text : List Char) :
    ∃ blanks, Blanks blanks ∧ text = blanks ++ skipSpace text :=
  ⟨text.takeWhile isSpace, fun _ => List.mem_takeWhile_imp,
    List.takeWhile_append_dropWhile.symm⟩

theorem scanWord_append (word rest : List Char) : scanWord word (word ++ rest) = .ok rest := by
  induction word with
  | nil => rfl
  | cons w word ih => simpa [scanWord] using ih

theorem scanWord_ok_iff {word text rest : List Char} :
    scanWord word text = .ok rest ↔ text = word ++ rest := by
  refine ⟨fun h => ?_, ?_⟩
  · induction word generalizing text with
    | nil => exact Except.ok.inj h
    | cons w word ih =>
      cases text with
      | nil => cases h
      | cons c text =>
        rw [scanWord] at h
        split at h
        · next same => rw [same, ih h, List.cons_append]
        · cases h
  · rintro rfl
    exact scanWord_append word rest

/-! ### Texts -/

theorem scanText_hex {a b c d : Char} {n : Nat} (spelled : hexUnit a b c d = some n)
    (low : n < 0xD800) (rest : List Char) :
    scanText ('\\' :: 'u' :: a :: b :: c :: d :: rest) =
      consChar (Char.ofNat n) (scanText rest) := by
  have trailing : isTrailing n = false := by
    simp [isTrailing]
    omega
  have leading : isLeading n = false := by
    simp [isLeading]
    omega
  rw [scanText]
  simp [spelled, trailing, leading]

theorem scanText_control (n : Nat) (h : n < 0x20) (rest : List Char) :
    scanText (escapedChar (Char.ofNat n) ++ rest) = consChar (Char.ofNat n) (scanText rest) := by
  interval_cases n <;> first
    | rfl
    | exact scanText_hex rfl (by decide) rest

theorem escapedChar_plain {c : Char} (control : ¬ c.toNat < 0x20) (quote : c ≠ '"')
    (slash : c ≠ '\\') : escapedChar c = [c] := by
  unfold escapedChar
  split <;> simp_all
  rw [if_neg (by omega), if_neg (by omega)]

theorem scanText_escapedChar (c : Char) (rest : List Char) :
    scanText (escapedChar c ++ rest) = consChar c (scanText rest) := by
  by_cases control : c.toNat < 0x20
  · have named := scanText_control c.toNat control rest
    rwa [Char.ofNat_toNat] at named
  · by_cases quote : c = '"'
    · subst quote
      rfl
    · by_cases slash : c = '\\'
      · subst slash
        rfl
      · rw [escapedChar_plain control quote slash, List.singleton_append, scanText]
        · simp [control]
        all_goals simp_all

theorem scanText_written (cs rest : List Char) :
    scanText (cs.flatMap escapedChar ++ '"' :: rest) = .ok (cs, rest) := by
  induction cs with
  | nil => rfl
  | cons c cs ih =>
    rw [List.flatMap_cons, List.append_assoc, scanText_escapedChar, ih]
    rfl

theorem scanString_written (s : String) (rest : List Char) :
    scanString (s.toList.flatMap escapedChar ++ '"' :: rest) = .ok (s, rest) := by
  rw [scanString, scanText_written]
  simp [Except.map]

/-! ### Digits -/

theorem scanDigits_all {ds : List Char} (digits : ∀ c ∈ ds, c.isDigit = true) {rest : List Char}
    (ends : ∀ c ∈ rest.head?, c.isDigit = false) :
    scanDigits (ds ++ rest) = (ds.map Decimal.digitValue, rest) := by
  have stop : rest.takeWhile Char.isDigit = [] ∧ rest.dropWhile Char.isDigit = rest := by
    cases rest with
    | nil => exact ⟨rfl, rfl⟩
    | cons c rest => simp [ends c rfl]
  rw [scanDigits, List.takeWhile_append_of_pos digits, List.dropWhile_append_of_pos digits,
    stop.1, stop.2, List.append_nil]

/-! ### Whole numbers -/

theorem ofDigits_append (ds : List Nat) (d : Nat) :
    Decimal.ofDigits (ds ++ [d]) = Decimal.ofDigits ds * 10 + d := by
  simp [Decimal.ofDigits]

theorem digitValue_digitChar {d : Nat} (h : d < 10) : Decimal.digitValue d.digitChar = d :=
  Nat.toNat_digitChar_sub_48_of_lt_ten h

theorem ofDigits_toDigits (n : Nat) :
    Decimal.ofDigits ((Nat.toDigits 10 n).map Decimal.digitValue) = n := by
  induction n using Nat.strongRecOn with
  | _ n ih =>
    by_cases small : n < 10
    · rw [Nat.toDigits_of_lt_base small]
      simp [Decimal.ofDigits, digitValue_digitChar small]
    · have last : n % 10 < 10 := Nat.mod_lt _ (by decide)
      rw [Nat.toDigits_of_base_le (by decide) (by omega), List.map_append, List.map_singleton,
        ofDigits_append, ih _ (by omega), digitValue_digitChar last]
      omega

theorem foldl_digits_le (s : Nat) (ds : List Nat) :
    s ≤ ds.foldl (fun n d => n * 10 + d) s := by
  induction ds generalizing s with
  | nil => exact Nat.le_refl s
  | cons d ds ih => exact Nat.le_trans (by omega) (ih (s * 10 + d))

theorem absorb_all {s : Nat} {ds : List Nat}
    (fits : ds.foldl (fun n d => n * 10 + d) s < UInt64.size) :
    absorb s ds = (ds.foldl (fun n d => n * 10 + d) s, []) := by
  induction ds generalizing s with
  | nil => rfl
  | cons d ds ih =>
    have next := foldl_digits_le (s * 10 + d) ds
    rw [List.foldl_cons] at fits ⊢
    rw [absorb, if_pos (by omega), ih fits]

theorem toDigits_ne_zero_cons {n : Nat} (pos : 0 < n) (cs : List Char) :
    Nat.toDigits 10 n ≠ '0' :: cs := by
  induction n using Nat.strongRecOn generalizing cs with
  | _ n ih =>
    intro h
    by_cases small : n < 10
    · rw [Nat.toDigits_of_lt_base small, List.cons.injEq, Nat.digitChar_eq_zero] at h
      omega
    · rw [Nat.toDigits_of_base_le (by decide) (by omega)] at h
      cases front : Nat.toDigits 10 (n / 10) with
      | nil => exact Nat.toDigits_ne_nil front
      | cons c cs' =>
        rw [front, List.cons_append, List.cons.injEq] at h
        exact ih (n / 10) (by omega) (by omega) cs' (h.1 ▸ front)

theorem isDigit_of_mem_toDigits {n : Nat} : ∀ c ∈ Nat.toDigits 10 n, c.isDigit = true :=
  fun _ => Nat.isDigit_of_mem_toDigits (by decide) (by decide)

theorem scanWhole_toDigits (n : Nat) :
    scanWhole (Nat.toDigits 10 n) = .ok ((Nat.toDigits 10 n).map Decimal.digitValue, []) := by
  have digits := @scanDigits_all (Nat.toDigits 10 n) isDigit_of_mem_toDigits [] nofun
  rw [List.append_nil] at digits
  unfold scanWhole
  split
  · next c text written =>
    by_cases zero : n = 0
    · subst zero
      cases written
    · exact absurd written (toDigits_ne_zero_cons (by omega) _)
  · rw [← digits]
    cases front : Nat.toDigits 10 n with
    | nil => exact absurd front Nat.toDigits_ne_nil
    | cons c text =>
      have first : c ∈ Nat.toDigits 10 n := front ▸ List.mem_cons_self
      rw [scanSomeDigits, if_pos (isDigit_of_mem_toDigits c first)]

theorem scanNumeral_toDigits (n : Nat) :
    scanNumeral (Nat.toDigits 10 n) =
      .ok (⟨(Nat.toDigits 10 n).map Decimal.digitValue, none, none⟩, []) := by
  simp only [scanNumeral, scanWhole_toDigits n, bind, Except.bind]
  rfl

theorem absorb_toDigits {n : Nat} (size : n < UInt64.size) :
    absorb 0 ((Nat.toDigits 10 n).map Decimal.digitValue) = (n, []) := by
  have value : ((Nat.toDigits 10 n).map Decimal.digitValue).foldl (fun n d => n * 10 + d) 0 = n :=
    ofDigits_toDigits n
  rw [absorb_all (by rwa [value]), value]

theorem scanNumber_natural {n : Nat} (size : n < UInt64.size) :
    scanNumber false (Nat.toDigits 10 n) = .ok (.integer n, []) := by
  simp [scanNumber, scanNumeral_toDigits n, bind, Except.bind, Numeral.value, absorb_toDigits size]

theorem scanNumber_negative {n : Nat} (pos : 0 < n) (size : n ≤ 2 ^ 63) :
    scanNumber true (Nat.toDigits 10 n) = .ok (.integer (-n), []) := by
  have fits : n < UInt64.size := by
    simp only [UInt64.size]
    omega
  have least : n ≤ Nat.pow 2 63 := size
  simp [scanNumber, scanNumeral_toDigits n, bind, Except.bind, Numeral.value,
    absorb_toDigits fits, pos, -Nat.pow_eq, -Nat.reducePow, least]

end ScimQuery.Json
