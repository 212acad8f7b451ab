import ScimQuery.Proofs.FloatRange
import ScimQuery.Proofs.JsonText

/-!
# Texts of floats

The text of a finite float is a number of JSON that spells the shortest digits. These scale to a
float when they are read (`parse_write`), and no two floats share them, so floats with the same text
are the same (`write_injective`).
-/

namespace ScimQuery.Decimal

open Json

/-! ### Digits -/

theorem foldl_digits (s : Nat) (ds : List Nat) :
    ds.foldl (fun n d => n * 10 + d) s = s * 10 ^ ds.length + ofDigits ds := by
  induction ds generalizing s with
  | nil => simp [ofDigits]
  | cons d ds ih =>
    have tail : ofDigits (d :: ds) = d * 10 ^ ds.length + ofDigits ds := by
      rw [ofDigits, List.foldl_cons, ih]
      simp
    rw [List.foldl_cons, ih, tail, List.length_cons, Nat.pow_succ]
    ring

theorem ofDigits_append_list (as bs : List Nat) :
    ofDigits (as ++ bs) = ofDigits as * 10 ^ bs.length + ofDigits bs := by
  rw [ofDigits, List.foldl_append, foldl_digits]
  rfl

theorem ofDigits_zeros (n : Nat) : ofDigits ((zeros n).map digitValue) = 0 := by
  induction n with
  | zero => rfl
  | succ n ih =>
    have cons : (zeros (n + 1)).map digitValue = [0] ++ (zeros n).map digitValue := rfl
    rw [cons, ofDigits_append_list, ih]
    simp [ofDigits]

theorem numeralText_toDigits (n : Nat) : NumeralText (Nat.toDigits 10 n) :=
  (wholeText_toDigits n).numeralText

theorem isDigit_zeros (n : Nat) : ∀ d ∈ zeros n, d.isDigit = true := by
  intro d member
  rw [List.eq_of_mem_replicate member]
  decide

theorem lt_pow_length_digitText (n : Nat) : n < 10 ^ (digitText n).length := by
  induction n using Nat.strongRecOn with
  | _ n ih =>
    unfold digitText at ih ⊢
    by_cases small : n < 10
    · rw [Nat.toDigits_of_lt_base small]
      exact small
    · have front := ih (n / 10) (by omega)
      rw [Nat.toDigits_of_base_le (by decide) (by omega), List.length_append, List.length_singleton,
        Nat.pow_succ]
      omega

/-! ### Numerals -/

/-- The decimal that a numeral spells. -/
def spelled (n : Numeral) : Digits :=
  ⟨ofDigits (n.whole ++ n.fraction.getD []), n.exponent.getD 0 - (n.fraction.getD []).length⟩

/-- No whole number: there is a fraction or an exponent. -/
def Marked (n : Numeral) : Prop := n.fraction.isSome = true ∨ n.exponent.isSome = true

/-- A numeral whose digits fit is scaled just as it is spelled. -/
theorem value_spelled {n : Numeral} (marked : Marked n) (size : (spelled n).digits < UInt64.size)
    (negative : Bool) : n.value negative =
      (scaled (spelled n).digits (spelled n).exponent).map fun x =>
        .decimal (if negative then -x else x) := by
  obtain ⟨whole, fraction, exponent⟩ := n
  have together : (spelled ⟨whole, fraction, exponent⟩).digits =
      (fraction.getD []).foldl (fun n d => n * 10 + d) (ofDigits whole) := List.foldl_append
  rw [together] at size
  have front : absorb 0 whole = (ofDigits whole, []) :=
    absorb_all ((foldl_digits_le _ _).trans_lt size)
  have part : (fraction.isNone && exponent.isNone) = false := by
    cases fraction <;> cases exponent <;> simp_all [Marked]
  have place : ((0 : Nat) : Int) - ((fraction.getD []).length - (0 : Nat)) + exponent.getD 0 =
      (spelled ⟨whole, fraction, exponent⟩).exponent := by
    change _ = exponent.getD 0 - ((fraction.getD []).length : Int)
    omega
  simp only [Numeral.value, front, part, absorb_all size, together, Bool.false_and,
    Bool.false_eq_true, if_false, List.length_nil, place]

/-- A text that is a numeral of JSON but no whole number, and spells some decimal. -/
def SpelledBy (d : Digits) (text : List Char) : Prop :=
  NumeralText text ∧
    ∃ numeral, scanNumeral text = .ok (numeral, []) ∧ Marked numeral ∧ spelled numeral = d

theorem spelledBy_parts {whole fraction exponent : List Char} (h : WholeText whole)
    (h' : FractionText fraction) (h'' : ExponentText exponent) {e : Option Int}
    (scanned : scanExponent exponent = .ok (e, []))
    (marked : (fractionOf fraction).isSome = true ∨ e.isSome = true) {d : Digits}
    (digits : ofDigits (whole.map digitValue ++ (fractionOf fraction).getD []) = d.digits)
    (place : e.getD 0 - ((fractionOf fraction).getD []).length = d.exponent) :
    SpelledBy d (whole ++ (fraction ++ exponent)) := by
  refine ⟨.intro h h' h'', _, scanNumeral_parts h h' h'' scanned, marked, ?_⟩
  rw [spelled, digits, place]

theorem spelledBy_pointed {whole fraction : List Char} (h : WholeText whole)
    (h' : DigitRun fraction) {d : Digits}
    (digits : ofDigits ((whole ++ fraction).map digitValue) = d.digits)
    (place : -fraction.length = d.exponent) : SpelledBy d (whole ++ '.' :: fraction) := by
  rw [List.map_append] at digits
  have spelled := @spelledBy_parts whole ('.' :: fraction) [] h (.some h') .none none rfl (.inl rfl)
    d digits (by simpa [fractionOf] using place)
  rwa [List.append_nil] at spelled

variable {d : Digits}

/-- A whole number is written with a zero behind the point, so it spells tenths. -/
def tenths (d : Digits) : Digits := ⟨d.digits * 10 ^ (d.exponent.toNat + 1), -1⟩

theorem value_tenths (upward : 0 ≤ d.exponent) : (tenths d).value = d.value := by
  obtain ⟨n, same⟩ := Int.eq_ofNat_of_zero_le upward
  rw [Digits.value, Digits.value, tenths, same]
  simp [pow_succ]
  field_simp

theorem spelledBy_whole (pos : 0 < d.digits) :
    SpelledBy (tenths d) (digitText d.digits ++ zeros d.exponent.toNat ++ ['.', '0']) := by
  obtain ⟨c, cs, text, nonzero, digits⟩ := digitText_cons pos
  have number : ofDigits ((c :: cs).map digitValue) = d.digits := by
    rw [← text]
    exact ofDigits_toDigits _
  have run : ∀ x ∈ c :: (cs ++ zeros d.exponent.toNat), x.isDigit = true := by
    rw [← List.cons_append]
    exact List.forall_mem_append.mpr ⟨digits, isDigit_zeros _⟩
  have appended : ofDigits ((c :: (cs ++ zeros d.exponent.toNat) ++ ['0']).map digitValue) =
      (tenths d).digits := by
    have zero : ofDigits (['0'].map digitValue) = 0 := rfl
    rw [← List.cons_append, List.map_append, List.map_append, ofDigits_append_list,
      ofDigits_append_list, number, ofDigits_zeros, zero, tenths, Nat.pow_succ]
    simp [zeros]
    ring
  rw [text]
  exact spelledBy_pointed (.run nonzero ⟨by simp, run⟩) ⟨by simp, by simp⟩ appended rfl

theorem spelledBy_fraction (pos : 0 < d.digits) (downward : d.exponent < 0) :
    SpelledBy d (floatLayout.positionalText d) := by
  obtain ⟨c, cs, text, nonzero, digits⟩ := digitText_cons pos
  have number : ofDigits ((c :: cs).map digitValue) = d.digits := by
    rw [← text]
    exact ofDigits_toDigits _
  have length : ((c :: cs).length : Int) = cs.length + 1 := by simp
  unfold Layout.positionalText
  dsimp only
  rw [text, length, if_neg (not_le.mpr downward)]
  split
  · next inside =>
    obtain ⟨k, place⟩ := Int.eq_ofNat_of_zero_le inside
    have short : k < cs.length := by omega
    have whole : WholeText (c :: cs.take k) := by
      refine .run nonzero ⟨by simp, fun x member => digits x ?_⟩
      rcases List.mem_cons.mp member with rfl | later
      · exact List.mem_cons_self
      · exact List.mem_cons_of_mem c (List.mem_of_mem_take later)
    have fraction : DigitRun (cs.drop k) := by
      refine ⟨by simpa using short, fun x member => digits x ?_⟩
      exact List.mem_cons_of_mem c (List.mem_of_mem_drop member)
    have parted : c :: cs.take k ++ cs.drop k = c :: cs := by
      rw [List.cons_append, List.take_append_drop]
    have exponent : -((cs.drop k).length : Int) = d.exponent := by
      rw [List.length_drop]
      omega
    have spelled := spelledBy_pointed whole fraction ((congrArg _ (congrArg _ parted)).trans number)
      exponent
    rw [place, Int.toNat_natCast, List.take_succ_cons, List.drop_succ_cons, List.append_assoc]
    exact spelled
  · next outside =>
    have fraction : DigitRun (zeros (-(d.exponent + (cs.length + 1) - 1) - 1).toNat ++ c :: cs) :=
      ⟨by simp, List.forall_mem_append.mpr ⟨isDigit_zeros _, digits⟩⟩
    have value : ofDigits ((['0'] ++ (zeros (-(d.exponent + (cs.length + 1) - 1) - 1).toNat ++
        c :: cs)).map digitValue) = d.digits := by
      have zero : ofDigits (['0'].map digitValue) = 0 := rfl
      rw [List.map_append, List.map_append, ofDigits_append_list, ofDigits_append_list, number,
        ofDigits_zeros, zero]
      omega
    have exponent : -((zeros (-(d.exponent + (cs.length + 1) - 1) - 1).toNat ++ c :: cs).length :
        Int) = d.exponent := by
      simp only [zeros, List.length_append, List.length_replicate, List.length_cons]
      omega
    have spelled := spelledBy_pointed .zero fraction value exponent
    rw [List.append_assoc]
    exact spelled

theorem spelledBy_exponent (pos : 0 < d.digits) : SpelledBy d (Layout.exponentText d) := by
  obtain ⟨c, cs, text, nonzero, digits⟩ := digitText_cons pos
  have number : ofDigits ((c :: cs).map digitValue) = d.digits := by
    rw [← text]
    exact ofDigits_toDigits _
  unfold Layout.exponentText
  dsimp only
  rw [text]
  have length : ((c :: cs).length : Int) = cs.length + 1 := by simp
  rw [length]
  generalize leads : d.exponent + (cs.length + 1) - 1 = leading
  have run : DigitRun (digitText leading.natAbs) := by
    obtain ⟨x, xs, front, _⟩ := digitText_eq_cons leading.natAbs
    exact ⟨by simp [front], isDigit_of_mem_toDigits⟩
  have places : ofDigits ((digitText leading.natAbs).map digitValue) = leading.natAbs :=
    ofDigits_toDigits _
  have scanned : ∃ sign, (sign = ['+'] ∨ sign = ['-']) ∧
      [if 0 ≤ leading then '+' else '-'] = sign ∧
      scanExponent ('e' :: (sign ++ digitText leading.natAbs)) = .ok (some leading, []) := by
    have all := @scanSomeDigits_run _ run [] nofun
    rw [List.append_nil] at all
    split
    · next upward =>
      refine ⟨['+'], .inl rfl, rfl, ?_⟩
      have value : (leading.natAbs : Int) = leading := by omega
      rw [scanExponent, List.singleton_append, scanSignedDigits, all]
      change Except.ok (some (ofDigits ((digitText leading.natAbs).map digitValue) : Int), []) = _
      rw [places, value]
    · next downward =>
      refine ⟨['-'], .inr rfl, rfl, ?_⟩
      have value : -(leading.natAbs : Int) = leading := by omega
      rw [scanExponent, List.singleton_append, scanSignedDigits, all]
      change Except.ok (some (-(ofDigits ((digitText leading.natAbs).map digitValue) : Int)), []) = _
      rw [places, value]
  obtain ⟨sign, signed, same, scanned⟩ := scanned
  have tail : ExponentText ('e' :: (sign ++ digitText leading.natAbs)) :=
    .some (.inl rfl) (.inr signed) run
  have layout : ∀ mantissa : List Char,
      mantissa ++ ['e', if 0 ≤ leading then '+' else '-'] ++ digitText leading.natAbs =
        mantissa ++ 'e' :: (sign ++ digitText leading.natAbs) := by
    intro mantissa
    rw [← same, List.append_assoc]
    rfl
  rw [layout]
  cases cs with
  | nil =>
    have whole : WholeText [c] := .run nonzero ⟨by simp, digits⟩
    have place : leading - (0 : Nat) = d.exponent := by
      rw [← leads]
      simp
    exact spelledBy_parts whole .none tail scanned (.inr rfl) number place
  | cons x xs =>
    have whole : WholeText [c] := .run nonzero ⟨by simp, by simpa using digits c (by simp)⟩
    have fraction : DigitRun (x :: xs) :=
      ⟨by simp, fun y member => digits y (List.mem_cons_of_mem c member)⟩
    have place : leading - ((x :: xs).map digitValue).length = d.exponent := by
      rw [← leads, List.length_map]
      omega
    exact spelledBy_parts whole (.some fraction) tail scanned (.inr rfl) number place

theorem tenths_inRange (short : d.exponent + (digitText d.digits).length ≤ 16)
    (upward : 0 ≤ d.exponent) : (tenths d).InRange := by
  refine inRange_of_neg ?_ (by decide : (-1 : Int) < 0)
  have places : (digitText d.digits).length + (d.exponent.toNat + 1) ≤ 17 := by omega
  calc d.digits * 10 ^ (d.exponent.toNat + 1)
      < 10 ^ (digitText d.digits).length * 10 ^ (d.exponent.toNat + 1) :=
        Nat.mul_lt_mul_of_pos_right (lt_pow_length_digitText _) (by positivity)
    _ = 10 ^ ((digitText d.digits).length + (d.exponent.toNat + 1)) := (Nat.pow_add ..).symm
    _ ≤ 10 ^ 17 := Nat.pow_le_pow_right (by decide) places
    _ < UInt64.size := by decide

/-- Digits are laid out as a text that spells their value, maybe by other digits. -/
theorem spelledBy_digits (pos : 0 < d.digits) (h : d.InRange) :
    ∃ d', SpelledBy d' (floatLayout.digits d) ∧ d'.value = d.value ∧ d'.InRange := by
  unfold Layout.digits
  split
  · next positional =>
    simp only [floatLayout, Bool.and_eq_true, decide_eq_true_eq] at positional
    rcases lt_or_ge d.exponent 0 with downward | upward
    · exact ⟨d, spelledBy_fraction pos downward, rfl, h⟩
    · refine ⟨tenths d, ?_, value_tenths upward, tenths_inRange (by omega) upward⟩
      unfold Layout.positionalText
      dsimp only
      rw [if_pos upward]
      exact spelledBy_whole pos
  · exact ⟨d, spelledBy_exponent pos, rfl, h⟩

/-! ### Written floats -/

/-- The decimal that is written for a finite float, without its sign. -/
def Parts.magnitude : Parts → ℚ
  | .finite _ v => (v.shortest floatLayout.tie).value
  | .zero _ | .nan | .infinite _ => 0

def Parts.negative : Parts → Bool
  | .finite negative _ | .zero negative | .infinite negative => negative
  | .nan => false

theorem spelledBy_zero : SpelledBy ⟨0, -1⟩ ['0', '.', '0'] :=
  @spelledBy_pointed ['0'] ['0'] .zero ⟨by simp, by simp⟩ ⟨0, -1⟩ rfl rfl

variable {x y : Float} {s : String}

theorem write_eq_some (h : floatLayout.write x = some s) :
    (Parts.ofFloat x).isFinite = true ∧ ∃ text d,
      s.toList = Layout.sign (Parts.ofFloat x).negative ++ text ∧
      SpelledBy d text ∧ d.value = (Parts.ofFloat x).magnitude ∧ d.InRange := by
  unfold Layout.write at h
  cases parts : Parts.ofFloat x with
  | nan | infinite negative =>
    rw [parts] at h
    cases h
  | zero negative =>
    rw [parts] at h
    obtain rfl := Option.some.inj h
    refine ⟨rfl, _, _, ?_, spelledBy_zero, by simp [Digits.value, Parts.magnitude],
      inRange_of_neg (by decide) (by decide : (-1 : Int) < 0)⟩
    rw [String.toList_ofList, List.append_assoc]
    rfl
  | finite negative v =>
    rw [parts] at h
    obtain rfl := Option.some.inj h
    have double := double_of_parts parts
    obtain ⟨d, spelled, value, range⟩ :=
      spelledBy_digits (v.digits_shortest_pos double.pos _) (shortest_inRange double)
    exact ⟨rfl, _, d, String.toList_ofList, spelled, value, range⟩

theorem scanNumber_spelled {d : Digits} {text : List Char} (h : SpelledBy d text) (range : d.InRange)
    (negative : Bool) : ∃ x : Float, scanNumber negative text = .ok (.decimal x, []) := by
  obtain ⟨_, numeral, scanned, marked, rfl⟩ := h
  obtain ⟨x, scales⟩ := Option.isSome_iff_exists.mp range.2
  refine ⟨if negative then -x else x, ?_⟩
  rw [scanNumber_numeral negative scanned, Numeral.number, value_spelled marked range.1, scales]
  rfl

/-- What is written for a float is read as a float again, if not always as the same one. -/
theorem parse_write (h : floatLayout.write x = some s) :
    ∃ y : Float, y.isFinite = true ∧ Json.parse s = .ok (.decimal y) := by
  obtain ⟨_, text, d, signed, spelled, _, range⟩ := write_eq_some h
  obtain ⟨y, scanned⟩ := scanNumber_spelled spelled range (Parts.ofFloat x).negative
  refine ⟨y, sound_scanNumber scanned, parse_ok_iff.mpr ⟨[], ?_, rfl⟩⟩
  have alone := value_eq_scalar_of_numberText (numberText_of_write h) depthLimit []
  rw [List.append_nil] at alone
  rw [alone, signed]
  generalize (Parts.ofFloat x).negative = negative at scanned
  cases negative with
  | true =>
    change scalar ('-' :: text) = _
    rw [scalar_minus, scanned]
    rfl
  | false =>
    obtain ⟨c, cs, rfl, digit⟩ := spelled.1.head_isDigit
    change scalar (c :: cs) = _
    rw [scalar_digit digit, scanned]
    rfl

theorem marked_digits (d : Digits) : '.' ∈ floatLayout.digits d ∨ 'e' ∈ floatLayout.digits d := by
  unfold Layout.digits
  split
  · left
    unfold Layout.positionalText
    dsimp only
    split
    · simp [floatLayout]
    · split <;> simp
  · right
    simp [Layout.exponentText]

/-- No float has the text of a whole number. -/
theorem marked_of_write (h : floatLayout.write x = some s) : '.' ∈ s.toList ∨ 'e' ∈ s.toList := by
  unfold Layout.write at h
  cases parts : Parts.ofFloat x with
  | nan | infinite negative =>
    rw [parts] at h
    cases h
  | zero negative =>
    rw [parts] at h
    obtain rfl := Option.some.inj h
    left
    simp [floatLayout]
  | finite negative v =>
    rw [parts] at h
    obtain rfl := Option.some.inj h
    rw [String.toList_ofList]
    exact (marked_digits _).imp (List.mem_append_right _) (List.mem_append_right _)

theorem spelledBy_unique {d d' : Digits} {text : List Char} (h : SpelledBy d text)
    (h' : SpelledBy d' text) : d = d' := by
  obtain ⟨_, numeral, scanned, _, rfl⟩ := h
  obtain ⟨_, numeral', scanned', _, rfl⟩ := h'
  obtain ⟨rfl, _⟩ := Prod.mk.inj (Except.ok.inj (scanned.symm.trans scanned'))
  rfl

theorem sign_append_inj {negative negative' : Bool} {text text' : List Char}
    (h : NumeralText text) (h' : NumeralText text')
    (same : Layout.sign negative ++ text = Layout.sign negative' ++ text') :
    negative = negative' ∧ text = text' := by
  obtain ⟨c, cs, rfl, digit⟩ := h.head_isDigit
  obtain ⟨c', cs', rfl, digit'⟩ := h'.head_isDigit
  have noMinus : ∀ {d : Char}, d.isDigit = true → d ≠ '-' := by
    rintro d digit rfl
    revert digit
    decide
  cases negative <;> cases negative'
  · exact ⟨rfl, same⟩
  · exact absurd (List.cons.inj same).1 (noMinus digit)
  · exact absurd (List.cons.inj same).1.symm (noMinus digit')
  · exact ⟨rfl, (List.cons.inj same).2⟩

theorem parts_unique (same : (Parts.ofFloat x).negative = (Parts.ofFloat y).negative)
    (finite : (Parts.ofFloat x).isFinite = true) (finite' : (Parts.ofFloat y).isFinite = true)
    (equal : (Parts.ofFloat x).magnitude = (Parts.ofFloat y).magnitude) :
    Parts.ofFloat x = Parts.ofFloat y := by
  have positive : ∀ {z negative v}, Parts.ofFloat z = .finite negative v →
      v.RoundsTo (Parts.ofFloat z).magnitude ∧ 0 < (Parts.ofFloat z).magnitude := by
    intro z negative v parts
    have mantissa := (double_of_parts parts).pos
    have digits : (0 : ℚ) < (v.shortest floatLayout.tie).digits := by
      exact_mod_cast v.digits_shortest_pos mantissa _
    rw [parts]
    exact ⟨v.shortest_roundsTo mantissa _, mul_pos digits (by positivity)⟩
  cases parts : Parts.ofFloat x with
  | nan | infinite => simp [parts, Parts.isFinite] at finite
  | zero negative =>
    cases parts' : Parts.ofFloat y with
    | nan | infinite => simp [parts', Parts.isFinite] at finite'
    | zero negative' =>
      rw [parts, parts'] at same
      exact congrArg _ same
    | finite negative' w =>
      have above := (positive parts').2
      rw [← equal, parts] at above
      exact absurd above (lt_irrefl 0)
  | finite negative v =>
    have rounds := (positive parts).1
    cases parts' : Parts.ofFloat y with
    | nan | infinite => simp [parts', Parts.isFinite] at finite'
    | zero negative' =>
      have above := (positive parts).2
      rw [equal, parts'] at above
      exact absurd above (lt_irrefl 0)
    | finite negative' w =>
      have rounds' := (positive parts').1
      rw [← equal] at rounds'
      obtain rfl := Binary.roundsTo_unique (double_of_parts parts) (double_of_parts parts') rounds
        rounds'
      rw [parts, parts'] at same
      exact congrArg (Parts.finite · v) same

theorem write_injective (h : floatLayout.write x = some s) (h' : floatLayout.write y = some s) :
    x = y := by
  obtain ⟨finite, text, d, signed, spelled, value, _⟩ := write_eq_some h
  obtain ⟨finite', text', d', signed', spelled', value', _⟩ := write_eq_some h'
  obtain ⟨same, rfl⟩ := sign_append_inj spelled.1 spelled'.1 (signed.symm.trans signed')
  obtain rfl := spelledBy_unique spelled spelled'
  exact float_unique (parts_unique same finite finite' (value.symm.trans value')) finite

end ScimQuery.Decimal
