import ScimQuery.Proofs.FiniteFloat
import ScimQuery.Proofs.Outcome
import ScimQuery.Proofs.Scanning

/-!
# Scanned numbers

A number that is scanned by itself is scanned in the same way in front of a text that does not go
on with it (`steady_scanNumber`). Whatever is scanned fits 64 bits or is a finite float
(`sound_scanNumber`), and the texts of floats are such numbers in form (`numberText_of_write`).
-/

namespace ScimQuery.Json

/-! ### Numbers in a longer text -/

/-- A text behind which a number cannot go on. -/
def NumberEnds (rest : List Char) : Prop :=
  ∀ c ∈ rest.head?, c.isDigit = false ∧ c ≠ '.' ∧ c ≠ 'e' ∧ c ≠ 'E'

theorem NumberEnds.digits {rest : List Char} (h : NumberEnds rest) :
    ∀ c ∈ rest.head?, c.isDigit = false := fun c first => (h c first).1

theorem scanFraction_ends {rest : List Char} (h : NumberEnds rest) :
    scanFraction rest = .ok (none, rest) := by
  unfold scanFraction
  split
  · next rest => exact absurd rfl (h '.' rfl).2.1
  · rfl

theorem scanExponent_ends {rest : List Char} (h : NumberEnds rest) :
    scanExponent rest = .ok (none, rest) := by
  unfold scanExponent
  split
  · next rest => exact absurd rfl (h 'e' rfl).2.2.1
  · next rest => exact absurd rfl (h 'E' rfl).2.2.2
  · rfl

/-- What a step scans it takes off the front, and scans again where a number ends behind it. -/
def Steady (scan : Scan α) : Prop :=
  ∀ text a left, scan text = .ok (a, left) →
    left <:+ text ∧ ∀ rest, NumberEnds rest → scan (text ++ rest) = .ok (a, left ++ rest)

theorem Steady.map {scan : Scan α} (h : Steady scan) (f : α → β) :
    Steady fun text => (scan text).map fun (a, rest) => (f a, rest) := by
  intro text b left scanned
  obtain ⟨⟨a, _⟩, first, same⟩ := except_map_ok_iff.mp scanned
  obtain ⟨rfl, rfl⟩ := Prod.mk.inj same
  refine ⟨(h _ _ _ first).1, fun rest ends => ?_⟩
  simp only [(h _ _ _ first).2 rest ends, Except.map]

theorem Steady.bind {scan : Scan α} {next : α → Scan β} (h : Steady scan)
    (h' : ∀ a, Steady (next a)) :
    Steady fun text => (scan text).bind fun (a, rest) => next a rest := by
  intro text b left scanned
  obtain ⟨⟨a, middle⟩, first, second⟩ := except_bind_ok_iff.mp scanned
  refine ⟨(h' a _ _ _ second).1.trans (h _ _ _ first).1, fun rest ends => ?_⟩
  simp only [(h _ _ _ first).2 rest ends, Except.bind]
  exact (h' a _ _ _ second).2 rest ends

theorem Steady.pure (a : α) : Steady fun text => .ok (a, text) := by
  intro text b left scanned
  obtain ⟨rfl, rfl⟩ := Prod.mk.inj (Except.ok.inj scanned)
  exact ⟨List.suffix_rfl, fun _ _ => rfl⟩

theorem scanDigits_append (text : List Char) {rest : List Char} (h : NumberEnds rest) :
    scanDigits (text ++ rest) = ((scanDigits text).1, (scanDigits text).2 ++ rest) := by
  have split := List.takeWhile_append_dropWhile (p := Char.isDigit) (l := text)
  have digits : ∀ c ∈ text.takeWhile Char.isDigit, c.isDigit = true := fun c member =>
    List.mem_takeWhile_imp member
  have ends : ∀ c ∈ (text.dropWhile Char.isDigit ++ rest).head?, c.isDigit = false := by
    intro c first
    cases behind : text.dropWhile Char.isDigit with
    | nil =>
      rw [behind, List.nil_append] at first
      exact h.digits c first
    | cons d ds =>
      have stopped := List.head?_dropWhile_not Char.isDigit text
      rw [behind] at stopped first
      simp_all
  have whole := scanDigits_all digits ends
  rw [← List.append_assoc, split] at whole
  exact whole

theorem steady_scanSomeDigits : Steady scanSomeDigits := by
  intro text ds left scanned
  cases text with
  | nil => cases scanned
  | cons c text =>
    rw [scanSomeDigits] at scanned
    split at scanned
    · next digit =>
      have read := Except.ok.inj scanned
      refine ⟨?_, fun rest ends => ?_⟩
      · have behind : (scanDigits (c :: text)).2 = left := by rw [read]
        exact behind ▸ List.dropWhile_suffix _
      · rw [List.cons_append, scanSomeDigits, if_pos digit, ← List.cons_append,
          scanDigits_append _ ends, read]
    · cases scanned

theorem steady_scanWhole : Steady scanWhole := by
  intro text ds left scanned
  unfold scanWhole at scanned
  split at scanned
  · next c text =>
    split at scanned
    · cases scanned
    · next digit =>
      obtain ⟨rfl, rfl⟩ := Prod.mk.inj (Except.ok.inj scanned)
      refine ⟨List.suffix_cons _ _, fun rest ends => ?_⟩
      simp [scanWhole, digit]
  · next other =>
    refine ⟨(steady_scanSomeDigits _ _ _ scanned).1, fun rest ends => ?_⟩
    have extended := (steady_scanSomeDigits _ _ _ scanned).2 rest ends
    unfold scanWhole
    split
    · next c more written =>
      -- the zero is the whole text, and what follows it does not start with a digit
      cases text with
      | nil => cases scanned
      | cons d text =>
        obtain ⟨rfl, behind⟩ := List.cons.inj written
        cases text with
        | nil =>
          obtain ⟨rfl, rfl⟩ := Prod.mk.inj (Except.ok.inj scanned)
          obtain rfl : rest = c :: more := behind
          rw [if_neg (by simp [ends.digits c rfl])]
          rfl
        | cons c text => exact absurd rfl (other c text)
    · exact extended

theorem steady_scanFraction : Steady scanFraction := by
  intro text a left scanned
  unfold scanFraction at scanned
  split at scanned
  · next text =>
    have inner := (steady_scanSomeDigits.map some) _ _ _ scanned
    exact ⟨inner.1.trans (List.suffix_cons _ _), inner.2⟩
  · next other =>
    obtain ⟨rfl, rfl⟩ := Prod.mk.inj (Except.ok.inj scanned)
    refine ⟨List.suffix_rfl, fun rest ends => ?_⟩
    cases text with
    | nil => exact scanFraction_ends ends
    | cons c text =>
      unfold scanFraction
      split
      · next written =>
        obtain ⟨rfl, _⟩ := List.cons.inj written
        exact absurd rfl (other text)
      · rfl

theorem steady_scanSignedDigits : Steady scanSignedDigits := by
  intro text a left scanned
  unfold scanSignedDigits at scanned
  split at scanned
  · next text =>
    have inner := (steady_scanSomeDigits.map fun ds => (Decimal.ofDigits ds : Int)) _ _ _ scanned
    exact ⟨inner.1.trans (List.suffix_cons _ _), inner.2⟩
  · next text =>
    have inner := (steady_scanSomeDigits.map fun ds => -(Decimal.ofDigits ds : Int)) _ _ _ scanned
    exact ⟨inner.1.trans (List.suffix_cons _ _), inner.2⟩
  · next plus minus =>
    have inner := (steady_scanSomeDigits.map fun ds => (Decimal.ofDigits ds : Int)) _ _ _ scanned
    refine ⟨inner.1, fun rest ends => ?_⟩
    rw [← inner.2 rest ends]
    cases text with
    | nil => cases scanned
    | cons c text =>
      unfold scanSignedDigits
      split
      · next written =>
        obtain ⟨rfl, _⟩ := List.cons.inj written
        exact absurd rfl (plus text)
      · next written =>
        obtain ⟨rfl, _⟩ := List.cons.inj written
        exact absurd rfl (minus text)
      · rfl

theorem steady_scanExponent : Steady scanExponent := by
  intro text a left scanned
  unfold scanExponent at scanned
  split at scanned
  · next text =>
    have inner := (steady_scanSignedDigits.map some) _ _ _ scanned
    exact ⟨inner.1.trans (List.suffix_cons _ _), inner.2⟩
  · next text =>
    have inner := (steady_scanSignedDigits.map some) _ _ _ scanned
    exact ⟨inner.1.trans (List.suffix_cons _ _), inner.2⟩
  · next small large =>
    obtain ⟨rfl, rfl⟩ := Prod.mk.inj (Except.ok.inj scanned)
    refine ⟨List.suffix_rfl, fun rest ends => ?_⟩
    cases text with
    | nil => exact scanExponent_ends ends
    | cons c text =>
      unfold scanExponent
      split
      · next written =>
        obtain ⟨rfl, _⟩ := List.cons.inj written
        exact absurd rfl (small text)
      · next written =>
        obtain ⟨rfl, _⟩ := List.cons.inj written
        exact absurd rfl (large text)
      · rfl

theorem steady_scanNumeral : Steady scanNumeral :=
  steady_scanWhole.bind fun _ => steady_scanFraction.bind fun _ =>
    steady_scanExponent.bind fun _ => Steady.pure _

theorem Steady.valued (n? : Option Number) :
    Steady fun rest => match n? with
      | some n => .ok (n, rest)
      | none => .error .numberTooLarge := by
  cases n? with
  | some n => exact Steady.pure n
  | none =>
    intro text a left scanned
    cases scanned

theorem steady_scanNumber (negative : Bool) : Steady (scanNumber negative) :=
  steady_scanNumeral.bind fun numeral => .valued (numeral.value negative)

/-! ### Which numbers are scanned -/

theorem absorb_lt {s : Nat} (ds : List Nat) (h : s < UInt64.size) :
    (absorb s ds).1 < UInt64.size := by
  induction ds generalizing s with
  | nil => exact h
  | cons d ds ih =>
    rw [absorb]
    split
    · next fits => exact ih fits
    · exact h

/-- Whole numbers have 64 bits with or without sign, and floats are finite. -/
def Number.Sound : Number → Prop
  | .integer n => -2 ^ 63 ≤ n ∧ n < 2 ^ 64
  | .decimal x => x.isFinite = true

theorem Numeral.sound_value {numeral : Numeral} {negative : Bool} {n : Number}
    (h : numeral.value negative = some n) : n.Sound := by
  have size : (absorb 0 numeral.whole).1 < UInt64.size := absorb_lt _ (by decide)
  have wide : UInt64.size = 2 ^ 64 := rfl
  have bound : Nat.pow 2 63 = 2 ^ 63 := rfl
  unfold Numeral.value at h
  split at h
  next s dropped taken =>
  rw [taken] at size
  dsimp only at size h
  split at h
  · split at h
    · obtain rfl := Option.some.inj h
      exact ⟨by omega, by omega⟩
    · split at h
      · next within =>
        obtain rfl := Option.some.inj h
        simp only [bound, Bool.and_eq_true, decide_eq_true_eq] at within
        exact ⟨by omega, by omega⟩
      · obtain rfl := Option.some.inj h
        exact Decimal.isFinite_neg (Decimal.bounded_whole size).isFinite
  · obtain ⟨x, scaled, rfl⟩ := Option.map_eq_some_iff.mp h
    have finite := Decimal.isFinite_of_scaled (absorb_lt _ size) scaled
    cases negative with
    | true => exact Decimal.isFinite_neg finite
    | false => exact finite

theorem sound_scanNumber {negative : Bool} {text rest : List Char} {n : Number}
    (h : scanNumber negative text = .ok (n, rest)) : n.Sound := by
  simp only [scanNumber, bind_ok_iff] at h
  obtain ⟨⟨numeral, _⟩, _, valued⟩ := h
  dsimp only at valued
  split at valued
  · next value =>
    obtain ⟨rfl, _⟩ := Prod.mk.inj (Except.ok.inj valued)
    exact Numeral.sound_value value
  · cases valued

/-! ### Written floats -/

/-- The characters of the texts of floats. -/
def isFloatChar (c : Char) : Bool := c.isDigit || ['.', 'e', '+', '-'].contains c

theorem isSpace_of_isFloatChar {c : Char} (h : isFloatChar c = true) : isSpace c = false := by
  cases space : isSpace c with
  | false => rfl
  | true =>
    simp only [isSpace, Bool.or_eq_true, decide_eq_true_eq] at space
    rcases space with ((rfl | rfl) | rfl) | rfl <;> revert h <;> decide

theorem isFloatChar_of_isDigit {c : Char} (h : c.isDigit = true) : isFloatChar c = true := by
  simp [isFloatChar, h]

theorem isFloatChar_digitText {n : Nat} : ∀ c ∈ Decimal.digitText n, isFloatChar c = true :=
  fun c member => isFloatChar_of_isDigit (isDigit_of_mem_toDigits c member)

theorem isFloatChar_zeros {n : Nat} : ∀ c ∈ Decimal.zeros n, isFloatChar c = true := by
  intro c member
  rw [List.eq_of_mem_replicate member]
  decide

theorem isFloatChar_positionalText (d : Decimal.Digits) :
    ∀ c ∈ floatLayout.positionalText d, isFloatChar c = true := by
  unfold Decimal.Layout.positionalText
  dsimp only
  split
  · simp only [List.forall_mem_append]
    exact ⟨⟨isFloatChar_digitText, isFloatChar_zeros⟩, List.all_eq_true.mp (by decide)⟩
  · split
    · simp only [List.forall_mem_append]
      exact ⟨⟨fun c member => isFloatChar_digitText c (List.mem_of_mem_take member),
          List.all_eq_true.mp (by decide)⟩,
        fun c member => isFloatChar_digitText c (List.mem_of_mem_drop member)⟩
    · simp only [List.forall_mem_append]
      exact ⟨⟨List.all_eq_true.mp (by decide), isFloatChar_zeros⟩, isFloatChar_digitText⟩

theorem isFloatChar_exponentText (d : Decimal.Digits) :
    ∀ c ∈ Decimal.Layout.exponentText d, isFloatChar c = true := by
  unfold Decimal.Layout.exponentText
  dsimp only
  simp only [List.forall_mem_append]
  refine ⟨⟨?_, ?_⟩, isFloatChar_digitText⟩
  · split
    · exact isFloatChar_digitText
    · simp only [List.forall_mem_append]
      exact ⟨⟨fun c member => isFloatChar_digitText c (List.mem_of_mem_take member),
          List.all_eq_true.mp (by decide)⟩,
        fun c member => isFloatChar_digitText c (List.mem_of_mem_drop member)⟩
  · split <;> exact List.all_eq_true.mp (by decide)

theorem isSpace_sign (negative : Bool) :
    ∀ c ∈ Decimal.Layout.sign negative, isSpace c = false := by
  intro c member
  cases negative with
  | true =>
    obtain rfl := List.mem_singleton.mp member
    rfl
  | false => cases member

/-- The text of a number starts with a digit or a minus, and has no blanks. -/
def NumberText (text : List Char) : Prop :=
  (∃ c ∈ text.head?, c = '-' ∨ c.isDigit = true) ∧ ∀ c ∈ text, isSpace c = false

theorem digitText_eq_cons (n : Nat) :
    ∃ c cs, Decimal.digitText n = c :: cs ∧ c.isDigit = true := by
  change ∃ c cs, Nat.toDigits 10 n = c :: cs ∧ c.isDigit = true
  cases front : Nat.toDigits 10 n with
  | nil => exact absurd front Nat.toDigits_ne_nil
  | cons c cs =>
    have first : c ∈ Nat.toDigits 10 n := front ▸ List.mem_cons_self
    exact ⟨c, cs, rfl, isDigit_of_mem_toDigits c first⟩

/-- Numbers are written without zeros in front. -/
theorem digitText_cons {n : Nat} (pos : 0 < n) :
    ∃ c cs, Decimal.digitText n = c :: cs ∧ c ≠ '0' ∧ ∀ d ∈ c :: cs, d.isDigit = true := by
  obtain ⟨c, cs, front, _⟩ := digitText_eq_cons n
  refine ⟨c, cs, front, ?_, ?_⟩
  · rintro rfl
    exact toDigits_ne_zero_cons pos cs front
  · rw [← front]
    exact isDigit_of_mem_toDigits

theorem head_digits (d : Decimal.Digits) :
    ∃ c ∈ (floatLayout.digits d).head?, c.isDigit = true := by
  obtain ⟨c, cs, front, digit⟩ := digitText_eq_cons d.digits
  unfold Decimal.Layout.digits
  split
  · unfold Decimal.Layout.positionalText
    dsimp only
    split
    · exact ⟨c, by simp [front], digit⟩
    · split
      · exact ⟨c, by simp [front], digit⟩
      · exact ⟨'0', rfl, by decide⟩
  · refine ⟨c, ?_, digit⟩
    unfold Decimal.Layout.exponentText
    dsimp only
    split <;> simp [front]

theorem numberText_digits (negative : Bool) (d : Decimal.Digits) :
    NumberText (Decimal.Layout.sign negative ++ floatLayout.digits d) := by
  have chars : ∀ c ∈ floatLayout.digits d, isSpace c = false := by
    intro c member
    refine isSpace_of_isFloatChar ?_
    unfold Decimal.Layout.digits at member
    split at member
    · exact isFloatChar_positionalText d c member
    · exact isFloatChar_exponentText d c member
  cases negative with
  | true => exact ⟨⟨'-', rfl, .inl rfl⟩, List.forall_mem_append.mpr ⟨isSpace_sign true, chars⟩⟩
  | false =>
    obtain ⟨c, first, digit⟩ := head_digits d
    exact ⟨⟨c, first, .inr digit⟩, chars⟩

theorem numberText_of_write {x : Float} {s : String} (h : floatLayout.write x = some s) :
    NumberText s.toList := by
  unfold Decimal.Layout.write at h
  cases parts : Decimal.Parts.ofFloat x with
  | nan | infinite negative =>
    rw [parts] at h
    cases h
  | zero negative =>
    rw [parts] at h
    obtain rfl := Option.some.inj h
    have chars : ∀ c ∈ "0.0".toList, isSpace c = false := fun c member =>
      isSpace_of_isFloatChar (List.all_eq_true.mp (by decide) c member)
    cases negative with
    | true => exact ⟨⟨'-', rfl, .inl rfl⟩, List.forall_mem_append.mpr ⟨isSpace_sign true, chars⟩⟩
    | false => exact ⟨⟨'0', rfl, .inr rfl⟩, chars⟩
  | finite negative v =>
    rw [parts] at h
    obtain rfl := Option.some.inj h
    rw [String.toList_ofList]
    exact numberText_digits negative _

theorem skipSpace_eq_nil_of_solid {text : List Char} (solid : ∀ c ∈ text, isSpace c = false)
    (h : skipSpace text = []) : text = [] := by
  cases text with
  | nil => rfl
  | cons c text =>
    rw [skipSpace_cons (solid c List.mem_cons_self)] at h
    cases h

end ScimQuery.Json
