import ScimQuery.Proofs.FiniteFloat
import ScimQuery.Proofs.SeventeenDigits

/-!
# Decimals in the range of floats

Scaling rounds a few times on the way, so a decimal in the range of floats may come out as infinite
all the same. The shortest digits of a float never do (`shortest_inRange`): rounding adds too little
to them, except for the largest floats, which are checked one by one.
-/

namespace ScimQuery.Decimal

open Float.Model UnpackedFloat Format

/-! ### Numbers up to a bound -/

/-- A number from one up to a bound, with all of its binary places. -/
inductive UpTo (q : ℚ) : UnpackedFloat → Prop where
  | intro (s) (m : Nat) (e pos) (full : m.log2 = 52) (least : -52 ≤ e) (le : m * 2 ^ e ≤ q) :
      UpTo q (.finite s m e pos)

/-- How much one rounding may add. -/
def rounding : ℚ := 1 + 1 / 2 ^ 52

theorem one_le_rounding : 1 ≤ rounding := by
  norm_num [rounding]

variable {q q' : ℚ} {u : UnpackedFloat} {x y : Float}

theorem UpTo.mono (h : UpTo q u) (le : q ≤ q') : UpTo q' u := by
  cases h with
  | intro s m e pos full least within => exact .intro s m e pos full least (within.trans le)

/-- A mantissa that loses some places and is then rounded up grows by one place at most. -/
theorem rounded_le {m r k : Nat} (full : 2 ^ 52 ≤ m / 2 ^ k) (upper : r ≤ m / 2 ^ k + 1) (e : Int) :
    r * 2 ^ (e + k) ≤ m * 2 ^ e * rounding := by
  have kept : ((m / 2 ^ k : Nat) : ℚ) * 2 ^ k ≤ m := by
    exact_mod_cast Nat.div_mul_le_self m (2 ^ k)
  have full : (2 : ℚ) ^ 52 ≤ (m / 2 ^ k : Nat) := by exact_mod_cast full
  have grown : (r : ℚ) ≤ (m / 2 ^ k : Nat) * rounding := by
    have upper : (r : ℚ) ≤ (m / 2 ^ k : Nat) + 1 := by exact_mod_cast upper
    unfold rounding
    linarith
  calc (r : ℚ) * 2 ^ (e + k) = r * 2 ^ k * 2 ^ e := by
        rw [zpow_add₀ (by norm_num), zpow_natCast]
        ring
    _ ≤ (m / 2 ^ k : Nat) * rounding * 2 ^ k * 2 ^ e := by gcongr
    _ = (m / 2 ^ k : Nat) * 2 ^ k * rounding * 2 ^ e := by ring
    _ ≤ m * rounding * 2 ^ e := by
        have positive := zero_le_one.trans one_le_rounding
        gcongr
    _ = m * 2 ^ e * rounding := by ring

theorem upTo_roundWithAccuracy {m : Nat} {e : Int} (s : Sign) (a : Accuracy) (full : 52 ≤ m.log2)
    (least : -1074 ≤ e) (one : 0 ≤ m.log2 + e) :
    UpTo (m * 2 ^ e * rounding) (roundWithAccuracy binary64 s m e a) := by
  obtain ⟨m', e', pos, normal, full', _, _⟩ := normal_roundWithAccuracy s a full least
  obtain ⟨r, lower, upper, rounded⟩ := roundWithAccuracy_eq s m e a
  have places : lost m e = m.log2 - 52 := by
    simp only [lost]
    omega
  have nonzero : m ≠ 0 := by
    rintro rfl
    simp at full
  have low : 2 ^ 52 ≤ m / 2 ^ lost m e := by
    rw [places, Nat.le_div_iff_mul_le (Nat.two_pow_pos _), ← Nat.pow_add, Nat.add_sub_cancel' full]
    exact Nat.log2_self_le nonzero
  rw [rounded _ _ rfl rfl] at normal ⊢
  generalize lost r _ = k at normal ⊢
  split at normal
  · cases normal
  · next some =>
    obtain ⟨_, rfl, _⟩ := UnpackedFloat.finite.inj normal
    rw [dif_neg some]
    refine .intro _ _ _ _ full' (by omega) (le_trans ?_ (rounded_le low upper e))
    have kept : ((r / 2 ^ k : Nat) : ℚ) * 2 ^ k ≤ r := by
      exact_mod_cast Nat.div_mul_le_self r (2 ^ k)
    rw [zpow_add₀ (by norm_num) _ (k : Int), zpow_natCast, mul_comm (2 ^ _) (2 ^ k : ℚ), ← mul_assoc]
    gcongr

theorem UpTo.exponent_le {s : Sign} {m : Nat} {e : Int} {pos : 0 < m} (h : UpTo q (.finite s m e pos))
    (top : q < 2 ^ 1024) : e ≤ 971 := by
  cases h with
  | intro _ _ _ _ full least le =>
    have low : (2 : ℚ) ^ 52 ≤ m := by
      exact_mod_cast ((Nat.log2_eq_iff (Nat.ne_of_gt pos)).mp full).1
    have below : (2 : ℚ) ^ (52 + e) < 2 ^ (1024 : Int) := by
      calc (2 : ℚ) ^ (52 + e) = 2 ^ 52 * 2 ^ e := by
            rw [zpow_add₀ (by norm_num)]
            norm_num
        _ ≤ m * 2 ^ e := by gcongr
        _ ≤ q := le
        _ < 2 ^ (1024 : Int) := by exact_mod_cast top
    have exponents := (zpow_lt_zpow_iff_right₀ (by norm_num : (1 : ℚ) < 2)).mp below
    omega

theorem UpTo.unpack_pack (h : UpTo q u) (top : q < 2 ^ 1024) :
    UpTo q (UnpackedFloat.unpack binary64 (UnpackedFloat.pack binary64 u)) := by
  cases h with
  | intro s m e pos full least le =>
    have place := UpTo.exponent_le (.intro s m e pos full least le) top
    obtain ⟨s', pos', unpacked⟩ := unpack_pack_normal s pos full (by omega) place
    rw [unpacked]
    exact .intro s' m e pos' full least le

theorem UpTo.mul (hx : UpTo q x.toModel.unpack) (hy : UpTo q' y.toModel.unpack)
    (top : q * q' * rounding < 2 ^ 1024) : UpTo (q * q' * rounding) (x * y).toModel.unpack := by
  refine UpTo.unpack_pack ?_ top
  generalize x.toModel.unpack = u at hx
  generalize y.toModel.unpack = v at hy
  cases hx with
  | intro s m e pos full least le =>
    cases hy with
    | intro s' m' e' pos' full' least' le' =>
      have product : 104 ≤ (m * m').log2 := by
        have low := ((Nat.log2_eq_iff (Nat.ne_of_gt pos)).mp full).1
        have low' := ((Nat.log2_eq_iff (Nat.ne_of_gt pos')).mp full').1
        rw [Nat.le_log2 (Nat.mul_ne_zero pos.ne' pos'.ne'), Nat.pow_add 2 52 52]
        exact Nat.mul_le_mul low low'
      refine (upTo_roundWithAccuracy _ _ (by omega) (by omega) (by omega)).mono ?_
      have split : ((m * m' : Nat) : ℚ) * 2 ^ (e + e') = m * 2 ^ e * (m' * 2 ^ e') := by
        rw [zpow_add₀ (by norm_num)]
        push_cast
        ring
      have positive := zero_le_one.trans one_le_rounding
      have above : (0 : ℚ) ≤ q := le_trans (by positivity) le
      rw [split]
      gcongr

/-! ### Significands and powers of ten -/

theorem upTo_ofScientific {m k : Nat} (pos : 0 < m) (size : k ≤ 308)
    (top : m * 10 ^ k * rounding < 2 ^ 1024) :
    UpTo (m * 10 ^ k * rounding) (Float.ofModel (Float.Model.ofScientific m k)).toModel.unpack := by
  refine UpTo.unpack_pack ?_ top
  have bits : (binary64.mantissaBits : Int) = 53 := rfl
  have scale : m <<< binary64.mantissaBits * 10 ^ (k : Int).toNat = m * 10 ^ k * 2 ^ 53 := by
    rw [Nat.shiftLeft_eq, Int.toNat_natCast]
    change m * 2 ^ 53 * 10 ^ k = _
    ring
  have low : 53 ≤ (m * 10 ^ k * 2 ^ 53).log2 := by
    have positive : 0 < m * 10 ^ k := by positivity
    exact (Nat.le_log2 (by positivity)).mpr (Nat.le_mul_of_pos_left _ positive)
  simp only [UnpackedFloat.ofScientific, dif_neg pos.ne']
  rw [if_neg (by simp; omega), if_neg (by simp; omega), if_pos (by omega), UnpackedFloat.mul]
  simp only [scale, bits]
  refine (upTo_roundWithAccuracy _ _ (by omega) (by decide) (by omega)).mono (le_of_eq ?_)
  have shifted : ((m * 10 ^ k * 2 ^ 53 : Nat) : ℚ) * 2 ^ (-53 + 0 : Int) = m * 10 ^ k := by
    rw [Nat.cast_mul, Nat.cast_mul, mul_assoc]
    norm_num
  rw [shifted]

/-- Whether a number goes up to a whole bound. -/
def isUpTo (n : Nat) : UnpackedFloat → Bool
  | .finite _ m e _ => m.log2 = 52 && -52 ≤ e && m * 2 ^ (e + 52).toNat ≤ n * 2 ^ 52
  | _ => false

theorem upTo_of_isUpTo {n : Nat} (h : isUpTo n u = true) : UpTo n u := by
  cases u with
  | finite s m e pos =>
    simp only [isUpTo, Bool.and_eq_true, decide_eq_true_eq] at h
    obtain ⟨⟨full, least⟩, le⟩ := h
    refine .intro s m e pos full least ?_
    obtain ⟨k, place⟩ : ∃ k : Nat, e = k - 52 := ⟨(e + 52).toNat, by omega⟩
    have whole : (m : ℚ) * 2 ^ k ≤ n * 2 ^ 52 := by
      rw [place, Int.sub_add_cancel, Int.toNat_natCast] at le
      exact_mod_cast le
    rw [place, zpow_sub₀ (by norm_num), zpow_natCast, ← mul_div_assoc, div_le_iff₀ (by positivity)]
    exact_mod_cast whole
  | notANumber | infinity | zero => cases h

theorem tenTo_rounding_lt {k : Nat} (h : k ≤ topExponent) : (10 : ℚ) ^ k * rounding < 2 ^ 1024 := by
  have greatest : (10 ^ 308 * (2 ^ 52 + 1) : ℚ) < 2 ^ 1024 * 2 ^ 52 := by
    exact_mod_cast (by decide +kernel : 10 ^ 308 * (2 ^ 52 + 1) < 2 ^ 1024 * 2 ^ 52)
  have small : (10 : ℚ) ^ k ≤ 10 ^ 308 := pow_le_pow_right₀ (by norm_num) h
  have quotient : rounding = (2 ^ 52 + 1) / 2 ^ 52 := by norm_num [rounding]
  rw [quotient, ← mul_div_assoc, div_lt_iff₀ (by positivity)]
  exact (mul_le_mul_of_nonneg_right small (by positivity)).trans_lt greatest

theorem upTo_tenTo {k : Nat} (h : k ≤ topExponent) :
    UpTo (10 ^ k * rounding) (tenTo k).toModel.unpack := by
  have short : ∀ k < 23, isUpTo (10 ^ k) (tenTo k).toModel.unpack = true := by decide +kernel
  by_cases small : k < 23
  · refine (upTo_of_isUpTo (short k small)).mono ?_
    push_cast
    exact le_mul_of_one_le_right (by positivity) one_le_rounding
  · have power := @upTo_ofScientific 1 k (by decide) h (by simpa using tenTo_rounding_lt h)
    rw [Nat.cast_one, one_mul] at power
    rw [tenTo, Float.ofScientific, dif_neg (by omega)]
    exact power

/-- Whole numbers of 64 bits stay far below the largest float. -/
theorem whole_lt (h : q ≤ 2 ^ 64 * rounding * rounding) : q < 2 ^ 1024 := by
  calc q ≤ 2 ^ 64 * rounding * rounding := h
    _ < 2 ^ 65 := by norm_num [rounding]
    _ ≤ 2 ^ 1024 := pow_le_pow_right₀ (by norm_num) (by norm_num)

theorem log2_mul_two_pow {n : Nat} (pos : 0 < n) (k : Nat) : (n * 2 ^ k).log2 = n.log2 + k := by
  obtain ⟨low, high⟩ := (Nat.log2_eq_iff pos.ne').mp rfl
  have wide := Nat.two_pow_pos k
  rw [Nat.log2_eq_iff (Nat.mul_ne_zero pos.ne' wide.ne'), Nat.add_right_comm, Nat.pow_add,
    Nat.pow_add]
  exact ⟨Nat.mul_le_mul_right _ low, Nat.mul_lt_mul_of_pos_right high wide⟩

theorem upTo_toFloat {n : Nat} (pos : 0 < n) (small : n < 2 ^ 53) (top : n * rounding < 2 ^ 1024) :
    UpTo (n * rounding) n.toUInt64.toFloat.toModel.unpack := by
  have wide : n.toUInt64.toNat = n := Nat.mod_eq_of_lt (by omega)
  refine UpTo.unpack_pack ?_ top
  have positive : compare (n : Int) 0 = .gt := by
    rw [Int.compare_eq_gt]
    omega
  rw [UnpackedFloat.ofUInt64, wide, UnpackedFloat.ofNat, UnpackedFloat.ofInt,
    UnpackedFloat.normalize, positive]
  have length := log2_lt_of_lt small (by decide)
  obtain ⟨k, places⟩ : ∃ k, n.log2 + k = 52 := ⟨52 - n.log2, by omega⟩
  have shift : (0 - binary64.targetExponent (totalExponent n 0)).toNat = k := by
    have bits : ((binary64.mantissaBits : Nat) : Int) = 53 := rfl
    have least : binary64.minExponent = -1074 := rfl
    rw [targetExponent, totalExponent, bits, least]
    omega
  have full : (n * 2 ^ k).log2 = 52 := (log2_mul_two_pow pos k).trans places
  simp only [Int.toNat_natCast, UnpackedFloat.round, decreaseExponent, shift, Nat.shiftLeft_eq]
  refine (upTo_roundWithAccuracy _ _ full.ge (by omega) (by omega)).mono (le_of_eq ?_)
  rw [Nat.cast_mul, Nat.cast_pow, zero_sub, zpow_neg, zpow_natCast]
  field_simp
  norm_num

theorem upTo_whole {n : Nat} (pos : 0 < n) (size : n < UInt64.size) :
    UpTo (n * rounding * rounding) (whole n).toModel.unpack := by
  have wide : (n : ℚ) ≤ 2 ^ 64 := by exact_mod_cast size.le
  have more := one_le_rounding
  have once : (n : ℚ) * rounding ≤ n * rounding * rounding :=
    le_mul_of_one_le_right (by positivity) more
  have twice : (n : ℚ) * rounding * rounding ≤ 2 ^ 64 * rounding * rounding := by gcongr
  unfold whole Float.ofScientific
  split
  · next small =>
    have one : UpTo (1 : Nat) (Float.ofBits 0x3FF0000000000000).toModel.unpack :=
      upTo_of_isUpTo (by decide)
    have factor := upTo_toFloat pos small.1 (whole_lt (once.trans twice))
    have product := factor.mul one
    rw [Nat.cast_one, mul_one] at product
    exact product (whole_lt twice)
  · have top : n * 10 ^ 0 * rounding < 2 ^ 1024 := by
      rw [pow_zero, mul_one]
      exact whole_lt (once.trans twice)
    refine (@upTo_ofScientific n 0 pos (by decide) top).mono ?_
    rwa [pow_zero, mul_one]

/-! ### Scaled decimals -/

/-- The tenth largest float. Roundings of what is smaller do not lead out of the range. -/
def safeLimit : ℚ := (2 ^ 53 - 10) * 2 ^ 971

theorem safeLimit_rounding_lt : safeLimit * rounding ^ 4 < 2 ^ 1024 := by
  have reduced : (2 ^ 53 - 10) * rounding ^ 4 < 2 ^ 53 := by norm_num [rounding]
  calc safeLimit * rounding ^ 4 = (2 ^ 53 - 10) * rounding ^ 4 * 2 ^ 971 := by
        rw [safeLimit, mul_right_comm]
    _ < 2 ^ 53 * 2 ^ 971 := mul_lt_mul_of_pos_right reduced (by positivity)
    _ = 2 ^ 1024 := by rw [← pow_add]

theorem safeLimit_lt : safeLimit < 10 ^ 309 := by
  calc safeLimit ≤ safeLimit * rounding ^ 4 :=
        le_mul_of_one_le_right (by norm_num [safeLimit]) (one_le_pow₀ one_le_rounding)
    _ < 2 ^ 1024 := safeLimit_rounding_lt
    _ < 10 ^ 309 := by exact_mod_cast (by decide +kernel : 2 ^ 1024 < 10 ^ 309)

/-- Digits of 64 bits that scale to a float. -/
def Digits.InRange (d : Digits) : Prop :=
  d.digits < UInt64.size ∧ (scaled d.digits d.exponent).isSome = true

variable {d : Digits}

theorem inRange_of_neg (size : d.digits < UInt64.size) (h : d.exponent < 0) : d.InRange := by
  refine ⟨size, ?_⟩
  simp only [scaled, if_neg (not_le.mpr h)]
  split
  · rfl
  · split <;> rfl

theorem inRange_of_le (pos : 0 < d.digits) (size : d.digits < UInt64.size)
    (le : d.value ≤ safeLimit) : d.InRange := by
  rcases lt_or_ge d.exponent 0 with downward | upward
  · exact inRange_of_neg size downward
  obtain ⟨n, _⟩ := d
  obtain ⟨k, rfl⟩ := Int.eq_ofNat_of_zero_le upward
  rw [Digits.value, zpow_natCast] at le
  dsimp only at pos size le
  have one : (1 : ℚ) ≤ n := by exact_mod_cast pos
  have within : k ≤ topExponent := by
    have power : (10 : ℚ) ^ k < 10 ^ 309 :=
      (le_mul_of_one_le_left (by positivity) one).trans_lt (le.trans_lt safeLimit_lt)
    exact Nat.le_of_lt_succ ((pow_lt_pow_iff_right₀ (by norm_num)).mp power)
  have top : n * rounding * rounding * (10 ^ k * rounding) * rounding < 2 ^ 1024 := by
    calc n * rounding * rounding * (10 ^ k * rounding) * rounding
        = n * 10 ^ k * rounding ^ 4 := by ring
      _ ≤ safeLimit * rounding ^ 4 := by
          have positive := zero_le_one.trans one_le_rounding
          gcongr
      _ < 2 ^ 1024 := safeLimit_rounding_lt
  have product := (upTo_whole pos size).mul (upTo_tenTo within) top
  have finite : (whole n * tenTo k).isInf = false := by
    change (whole n * tenTo k).toModel.unpack.isInf = false
    generalize (whole n * tenTo k).toModel.unpack = u at product
    cases product
    rfl
  exact ⟨size, by simp [scaled, within, finite]⟩

theorem high_le_safeLimit {v : Binary} (hv : v.Double)
    (h : v.exponent = 971 → v.mantissa < 2 ^ 53 - 10) : v.high ≤ safeLimit := by
  have greatest := hv.greatest
  have limit : safeLimit = (2 ^ 53 - 10) * 4 * 2 ^ (969 : Int) := by
    have quarters : (2 : ℚ) ^ 971 = 4 * 2 ^ (969 : Int) := by
      rw [← zpow_natCast, show ((971 : Nat) : Int) = 969 + 2 by norm_num, zpow_add₀ (by norm_num),
        mul_comm]
      norm_num
    rw [safeLimit, quarters, mul_assoc]
  rw [limit]
  by_cases last : v.exponent = 971
  · have unit : v.unit = 2 ^ (969 : Int) := by
      rw [Binary.unit, last]
      norm_num
    have bound : (v.mantissa : ℚ) + 1 ≤ 2 ^ 53 - 10 := by
      have small := h last
      have below : v.mantissa + 11 ≤ 2 ^ 53 := by omega
      have cast : (v.mantissa : ℚ) + 11 ≤ 2 ^ 53 := by exact_mod_cast below
      linarith
    rw [Binary.high, unit]
    exact mul_le_mul_of_nonneg_right (by linarith) (by positivity)
  · have unit : 2 * v.unit ≤ 2 ^ (969 : Int) := by
      calc 2 * v.unit = 2 ^ (v.exponent - 2 + 1) := by
            rw [Binary.unit, zpow_add_one₀ (by norm_num), mul_comm]
        _ ≤ 2 ^ (969 : Int) := zpow_le_zpow_right₀ (by norm_num) (by omega)
    have bound : (v.mantissa : ℚ) < 2 ^ 53 := by exact_mod_cast hv.small
    have positive := v.unit_pos
    calc v.high ≤ (2 ^ 54 + 1) * (2 * v.unit) := by
          rw [Binary.high, ← mul_assoc]
          exact mul_le_mul_of_nonneg_right (by linarith) positive.le
      _ ≤ (2 ^ 53 - 10) * 4 * 2 ^ (969 : Int) :=
          mul_le_mul (by norm_num) unit (by positivity) (by norm_num)

/-- The shortest digits of a float scale to a float. -/
theorem shortest_inRange {v : Binary} (hv : v.Double) : (v.shortest .even).InRange := by
  have largest : ∀ j < 10, let d := (⟨2 ^ 53 - 1 - j, 971, false⟩ : Binary).shortest .even
      (scaled d.digits d.exponent).isSome = true := by
    decide +kernel
  have size : (v.shortest .even).digits < UInt64.size :=
    (v.shortest_digits_le hv .even).trans_lt (by decide)
  by_cases large : v.exponent = 971 ∧ 2 ^ 53 - 10 ≤ v.mantissa
  · obtain ⟨exponent, mantissa⟩ := large
    have small := hv.small
    have wide : v.narrowBelow = false := by
      rw [← Bool.not_eq_true, hv.narrow]
      omega
    have same : v = ⟨2 ^ 53 - 1 - (2 ^ 53 - 1 - v.mantissa), 971, false⟩ := by
      rw [Nat.sub_sub_self (by omega), ← exponent, ← wide]
    refine ⟨size, ?_⟩
    rw [same]
    exact largest _ (by omega)
  · have below := high_le_safeLimit hv fun last => by omega
    exact inRange_of_le (v.digits_shortest_pos hv.pos .even) size
      ((v.shortest_roundsTo hv.pos .even).le.2.trans below)

end ScimQuery.Decimal
