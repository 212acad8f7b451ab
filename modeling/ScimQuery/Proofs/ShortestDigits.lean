import Mathlib.Algebra.Order.Field.Rat
import Mathlib.Algebra.Order.Field.Power
import Mathlib.Data.Rat.Cast.Order
import Mathlib.Tactic.FieldSimp
import Mathlib.Tactic.Linarith
import Mathlib.Tactic.NormNum
import Mathlib.Tactic.Positivity
import Mathlib.Tactic.Ring
import ScimQuery.Decimal.Shortest

/-!
# Shortest digits tell floats apart

The shortest digits of a float lie among the decimals that round to it (`shortest_roundsTo`). No
decimal rounds to two floats, so floats with the same shortest digits are the same
(`roundsTo_unique`).
-/

namespace ScimQuery.Decimal

def Digits.value (d : Digits) : ℚ := d.digits * 10 ^ d.exponent

namespace Binary

/-- A quarter of the last binary place. -/
def unit (v : Binary) : ℚ := 2 ^ (v.exponent - 2)

theorem unit_pos (v : Binary) : 0 < v.unit := by
  unfold unit
  positivity

def value (v : Binary) : ℚ := 4 * v.mantissa * v.unit

/-- Halfway to the next smaller float. -/
def low (v : Binary) : ℚ := (4 * v.mantissa - if v.narrowBelow then 1 else 2) * v.unit

/-- Halfway to the next larger float. -/
def high (v : Binary) : ℚ := (4 * v.mantissa + 2) * v.unit

theorem value_between (v : Binary) : v.low < v.value ∧ v.value < v.high := by
  have positive := v.unit_pos
  have below : (4 * v.mantissa - if v.narrowBelow then 1 else 2 : ℚ) < 4 * v.mantissa := by
    split <;> linarith
  exact ⟨mul_lt_mul_of_pos_right below positive, mul_lt_mul_of_pos_right (by linarith) positive⟩

/-- The decimals to which a float is nearest. Those halfway belong to the even one of two floats. -/
def RoundsTo (v : Binary) (q : ℚ) : Prop :=
  if v.mantissa % 2 = 0 then v.low ≤ q ∧ q ≤ v.high else v.low < q ∧ q < v.high

theorem RoundsTo.le {v : Binary} {q : ℚ} (h : v.RoundsTo q) : v.low ≤ q ∧ q ≤ v.high := by
  unfold RoundsTo at h
  split at h
  · exact h
  · exact ⟨h.1.le, h.2.le⟩

theorem RoundsTo.lt {v : Binary} {q : ℚ} (h : v.RoundsTo q) (odd : v.mantissa % 2 = 1) :
    v.low < q ∧ q < v.high := by
  unfold RoundsTo at h
  rwa [if_neg (by omega)] at h

theorem RoundsTo.of_lt {v : Binary} {q : ℚ} (h : v.low < q) (h' : q < v.high) : v.RoundsTo q := by
  unfold RoundsTo
  split
  · exact ⟨h.le, h'.le⟩
  · exact ⟨h, h'⟩

end Binary

/-! ### Reading back -/

theorem power_eq (base : Nat) (pos : 0 < base) (e : Int) :
    0 < (power base e).2 ∧ ((power base e).1 : ℚ) = (base : ℚ) ^ e * (power base e).2 := by
  have nonzero : (base : ℚ) ≠ 0 := by positivity
  unfold power
  split
  · next upward =>
    obtain ⟨n, rfl⟩ := Int.eq_ofNat_of_zero_le upward
    exact ⟨Nat.one_pos, by simp⟩
  · next downward =>
    obtain ⟨n, rfl⟩ : ∃ n : Nat, e = -n := ⟨e.natAbs, by omega⟩
    refine ⟨Nat.pow_pos pos, ?_⟩
    have whole : (-(-(n : Int))).toNat = n := by omega
    simp only [whole, Nat.cast_one, Nat.pow_eq, Nat.cast_pow, zpow_neg, zpow_natCast]
    exact (inv_mul_cancel₀ (pow_ne_zero n nonzero)).symm

namespace Binary

theorem scale_eq (v : Binary) (grid : Int) :
    ∃ c : ℚ, 0 < c ∧ ((v.scale grid).1 : ℚ) = 10 ^ grid * c ∧
      ((v.scale grid).2 : ℚ) = v.unit * c := by
  obtain ⟨posTwo, two⟩ := power_eq 2 (by decide) (v.exponent - 2)
  obtain ⟨posTen, ten⟩ := power_eq 10 (by decide) grid
  refine ⟨(power 2 (v.exponent - 2)).2 * (power 10 grid).2, by positivity, ?_, ?_⟩
  · change (((power 10 grid).1 * (power 2 (v.exponent - 2)).2 : Nat) : ℚ) = _
    push_cast
    rw [ten]
    push_cast
    ring
  · change (((power 2 (v.exponent - 2)).1 * (power 10 grid).2 : Nat) : ℚ) = _
    push_cast
    rw [two, unit]
    push_cast
    ring

theorem readsBack_iff {v : Binary} (pos : 0 < v.mantissa) (grid : Int) (n : Nat) :
    v.readsBack grid n = true ↔ v.RoundsTo (n * 10 ^ grid) := by
  obtain ⟨c, posC, step, part⟩ := v.scale_eq grid
  -- the grid and the quarters are whole multiples of one unit, which cancels
  have below : ((4 * v.mantissa - if v.narrowBelow then 1 else 2 : Nat) : ℚ) =
      4 * v.mantissa - if v.narrowBelow then 1 else 2 := by
    rw [Nat.cast_sub (by split <;> omega)]
    push_cast
    rfl
  have point : ((n * (v.scale grid).1 : Nat) : ℚ) = n * 10 ^ grid * c := by
    push_cast
    rw [step]
    ring
  have low : (((4 * v.mantissa - if v.narrowBelow then 1 else 2) * (v.scale grid).2 : Nat) : ℚ) =
      v.low * c := by
    rw [Nat.cast_mul, below, part, Binary.low]
    ring
  have high : (((4 * v.mantissa + 2) * (v.scale grid).2 : Nat) : ℚ) = v.high * c := by
    push_cast
    rw [part, Binary.high]
    ring
  unfold readsBack RoundsTo
  dsimp only
  split
  · rw [Bool.and_eq_true, decide_eq_true_eq, decide_eq_true_eq, ← Nat.cast_le (α := ℚ),
      ← Nat.cast_le (α := ℚ), point, low, high, mul_le_mul_iff_left₀ posC,
      mul_le_mul_iff_left₀ posC]
  · rw [Bool.and_eq_true, decide_eq_true_eq, decide_eq_true_eq, ← Nat.cast_lt (α := ℚ),
      ← Nat.cast_lt (α := ℚ), point, low, high, mul_lt_mul_iff_left₀ posC,
      mul_lt_mul_iff_left₀ posC]

theorem near_roundsTo {v : Binary} (pos : 0 < v.mantissa) {tie : Tie} {grid : Int} {d : Digits}
    (h : v.near tie grid = some d) : v.RoundsTo d.value := by
  unfold near at h
  dsimp only at h
  split at h
  · next below above =>
    split at h
    · obtain rfl := Option.some.inj h
      exact (readsBack_iff pos grid _).mp below
    · obtain rfl := Option.some.inj h
      exact (readsBack_iff pos grid _).mp above
  · next below _ =>
    obtain rfl := Option.some.inj h
    exact (readsBack_iff pos grid _).mp below
  · next _ above =>
    obtain rfl := Option.some.inj h
    exact (readsBack_iff pos grid _).mp above
  · cases h

theorem exact_value (v : Binary) : v.exact.value = v.value := by
  have whole : v.value = v.mantissa * 2 ^ v.exponent := by
    rw [value, unit, zpow_sub₀ (by norm_num)]
    norm_num
    ring
  rw [whole]
  unfold exact Digits.value
  split
  · next upward =>
    obtain ⟨n, same⟩ := Int.eq_ofNat_of_zero_le upward
    simp [same]
  · next downward =>
    obtain ⟨n, same⟩ : ∃ n : Nat, v.exponent = -n := ⟨v.exponent.natAbs, by omega⟩
    have ten : (10 : ℚ) ^ n = 2 ^ n * 5 ^ n := by
      rw [← mul_pow]
      norm_num
    have whole : (-(-(n : Int))).toNat = n := by omega
    simp only [same, whole, Nat.pow_eq, Nat.cast_mul, Nat.cast_pow, zpow_neg, zpow_natCast, ten]
    field_simp
    norm_num

theorem exact_roundsTo (v : Binary) : v.RoundsTo v.exact.value := by
  rw [exact_value]
  exact .of_lt v.value_between.1 v.value_between.2

end Binary

theorem Digits.strip_value (d : Digits) : d.strip.value = d.value := by
  induction d using Digits.strip.induct with
  | case1 d solid => rw [Digits.strip, if_pos solid]
  | case2 d zeros ih =>
    have last : d.digits % 10 = 0 := by omega
    have whole : (d.digits : ℚ) = 10 * (d.digits / 10 : Nat) := by
      exact_mod_cast (by omega : d.digits = 10 * (d.digits / 10))
    rw [Digits.strip, if_neg zeros, ih, Digits.value, Digits.value, whole,
      zpow_add_one₀ (by norm_num)]
    ring

theorem Binary.shortest_roundsTo {v : Binary} (pos : 0 < v.mantissa) (tie : Tie) :
    v.RoundsTo (v.shortest tie).value := by
  rw [shortest, Digits.strip_value]
  cases found : (List.range 17).findSome? fun n : Nat => v.near tie (v.leading - n) with
  | none => exact v.exact_roundsTo
  | some d =>
    obtain ⟨n, _, near⟩ := List.exists_of_findSome?_eq_some found
    exact near_roundsTo pos near

theorem Binary.digits_shortest_pos {v : Binary} (pos : 0 < v.mantissa) (tie : Tie) :
    0 < (v.shortest tie).digits := by
  have low : 0 < v.low := by
    refine mul_pos ?_ v.unit_pos
    have one : (1 : ℚ) ≤ v.mantissa := by exact_mod_cast pos
    split <;> linarith
  have value : 0 < (v.shortest tie).value := low.trans_le (shortest_roundsTo pos tie).le.1
  refine Nat.pos_of_ne_zero fun none => ?_
  simp [Digits.value, none] at value

/-! ### Floats apart -/

/-- A binary number that a float of 64 bits can be. -/
structure Binary.Double (v : Binary) : Prop where
  pos : 0 < v.mantissa
  small : v.mantissa < 2 ^ 53
  least : -1074 ≤ v.exponent
  greatest : v.exponent ≤ 971
  full : -1074 < v.exponent → 2 ^ 52 ≤ v.mantissa
  narrow : v.narrowBelow = true ↔ v.mantissa = 2 ^ 52 ∧ -1074 < v.exponent

namespace Binary

/-- Smaller in its exponent, or in its mantissa where the exponents are the same. -/
def Before (v w : Binary) : Prop :=
  v.exponent < w.exponent ∨ v.exponent = w.exponent ∧ v.mantissa < w.mantissa

variable {v w : Binary}

theorem low_full (hw : w.Double) (normal : -1074 < w.exponent) : (2 ^ 54 - 1) * w.unit ≤ w.low := by
  refine mul_le_mul_of_nonneg_right ?_ w.unit_pos.le
  have full : (2 : ℚ) ^ 52 ≤ w.mantissa := by exact_mod_cast hw.full normal
  split
  · linarith
  · next wide =>
    have above : w.mantissa ≠ 2 ^ 52 := fun least => wide (hw.narrow.mpr ⟨least, normal⟩)
    have next : (2 : ℚ) ^ 52 + 1 ≤ w.mantissa := by
      exact_mod_cast Nat.lt_of_le_of_ne (hw.full normal) above.symm
    linarith

theorem unit_double (h : v.exponent < w.exponent) : 2 * v.unit ≤ w.unit := by
  have step : v.exponent - 2 + 1 ≤ w.exponent - 2 := by omega
  calc 2 * v.unit = 2 ^ (v.exponent - 2 + 1) := by rw [unit, zpow_add_one₀ (by norm_num), mul_comm]
    _ ≤ w.unit := zpow_le_zpow_right₀ (by norm_num) step

/-- The intervals of two floats meet in one point at most, and there an odd mantissa keeps out. -/
theorem high_le_low (hv : v.Double) (hw : w.Double) (h : v.Before w) :
    v.high ≤ w.low ∧ (v.high = w.low → v.mantissa % 2 = 1 ∨ w.mantissa % 2 = 1) := by
  rcases h with smaller | ⟨same, smaller⟩
  · have low := low_full hw (by have := hv.least; omega)
    have wide : (2 ^ 54 - 1) * (2 * v.unit) ≤ (2 ^ 54 - 1) * w.unit :=
      mul_le_mul_of_nonneg_left (unit_double smaller) (by norm_num)
    have greatest : (v.mantissa : ℚ) ≤ 2 ^ 53 - 1 := by
      have small := hv.small
      have bound : v.mantissa + 1 ≤ 2 ^ 53 := small
      have cast : (v.mantissa : ℚ) + 1 ≤ 2 ^ 53 := by exact_mod_cast bound
      linarith
    have high : v.high ≤ (2 ^ 54 - 1) * (2 * v.unit) := by
      rw [Binary.high, ← mul_assoc]
      exact mul_le_mul_of_nonneg_right (by linarith) v.unit_pos.le
    refine ⟨by linarith, fun touch => .inl ?_⟩
    by_contra even
    have below : v.mantissa + 2 ≤ 2 ^ 53 := by
      have small := hv.small
      omega
    have cast : (v.mantissa : ℚ) + 2 ≤ 2 ^ 53 := by exact_mod_cast below
    have apart : v.high < (2 ^ 54 - 1) * (2 * v.unit) := by
      rw [Binary.high, ← mul_assoc]
      exact mul_lt_mul_of_pos_right (by linarith) v.unit_pos
    linarith
  · have unit : w.unit = v.unit := by rw [Binary.unit, Binary.unit, same]
    have next : (v.mantissa : ℚ) + 1 ≤ w.mantissa := by exact_mod_cast smaller
    have positive := v.unit_pos
    unfold high low
    rw [unit]
    constructor
    · refine mul_le_mul_of_nonneg_right ?_ positive.le
      split <;> linarith
    · intro touch
      have coefficients := mul_right_cancel₀ positive.ne' touch
      split at coefficients
      · have whole : 4 * (v.mantissa : ℤ) + 2 = 4 * w.mantissa - 1 := by exact_mod_cast coefficients
        omega
      · have whole : 4 * (v.mantissa : ℤ) + 2 = 4 * w.mantissa - 2 := by exact_mod_cast coefficients
        omega

theorem not_roundsTo_of_before (hv : v.Double) (hw : w.Double) (h : v.Before w) {q : ℚ}
    (hq : v.RoundsTo q) : ¬ w.RoundsTo q := by
  intro hq'
  obtain ⟨apart, touching⟩ := high_le_low hv hw h
  have below := hq.le.2
  have above := hq'.le.1
  rcases touching (le_antisymm apart (above.trans below)) with odd | odd
  · exact absurd ((hq.lt odd).2.trans_le apart) (not_lt.mpr above)
  · exact absurd (apart.trans_lt (hq'.lt odd).1) (not_lt.mpr below)

theorem roundsTo_unique (hv : v.Double) (hw : w.Double) {q : ℚ} (hq : v.RoundsTo q)
    (hq' : w.RoundsTo q) : v = w := by
  have unordered : ¬ v.Before w := fun before => not_roundsTo_of_before hv hw before hq hq'
  have unordered' : ¬ w.Before v := fun before => not_roundsTo_of_before hw hv before hq' hq
  simp only [Before, not_or, not_and, not_lt] at unordered unordered'
  have exponent : v.exponent = w.exponent := le_antisymm unordered'.1 unordered.1
  have mantissa : v.mantissa = w.mantissa :=
    le_antisymm (unordered'.2 exponent.symm) (unordered.2 exponent)
  have narrow : v.narrowBelow = w.narrowBelow := by
    rw [Bool.eq_iff_iff, hv.narrow, hw.narrow, exponent, mantissa]
  cases v
  cases w
  simp_all

end Binary

/-! ### Bits -/

theorem double_of_parts {bits : Nat} {negative : Bool} {v : Binary}
    (h : Parts.ofBits bits = .finite negative v) : v.Double := by
  have fraction : bits % Nat.pow 2 52 < 2 ^ 52 := Nat.mod_lt _ (by decide)
  have exponent : bits / Nat.pow 2 52 % Nat.pow 2 11 < 2048 := Nat.mod_lt _ (by decide)
  unfold Parts.ofBits at h
  generalize bits / Nat.pow 2 52 % Nat.pow 2 11 = biased at h exponent
  generalize bits % Nat.pow 2 52 = f at h fraction
  dsimp only at h
  split at h
  · split at h <;> cases h
  · split at h
    · split at h
      · cases h
      · obtain ⟨_, rfl⟩ := Parts.finite.inj h
        exact ⟨by simp; omega, by simp; omega, by simp, by simp, by simp, by simp⟩
    · obtain ⟨_, rfl⟩ := Parts.finite.inj h
      refine ⟨?_, ?_, ?_, ?_, ?_, ?_⟩ <;> simp <;> omega

/-- The bits of a finite float, put together again. -/
def Parts.bits : Parts → Nat
  | .zero negative => negative.toNat * 2 ^ 63
  | .finite negative v =>
    negative.toNat * 2 ^ 63 + if v.mantissa < 2 ^ 52 then v.mantissa
      else (v.exponent + 1075).toNat * 2 ^ 52 + (v.mantissa - 2 ^ 52)
  | .nan | .infinite _ => 0

def Parts.isFinite : Parts → Bool
  | .zero _ | .finite _ _ => true
  | .nan | .infinite _ => false

theorem toNat_decide_eq_one {n : Nat} (h : n < 2) : (decide (n = 1)).toNat = n := by
  rcases (by omega : n = 0 ∨ n = 1) with rfl | rfl <;> rfl

theorem bits_ofBits {bits : Nat} (size : bits < 2 ^ 64)
    (finite : (Parts.ofBits bits).isFinite = true) : (Parts.ofBits bits).bits = bits := by
  have whole : (decide (bits / Nat.pow 2 63 % 2 = 1)).toNat * 2 ^ 63 +
      (bits / Nat.pow 2 52 % Nat.pow 2 11 * 2 ^ 52 + bits % Nat.pow 2 52) = bits := by
    rw [toNat_decide_eq_one (Nat.mod_lt _ (by decide))]
    simp only [Nat.pow_eq, Nat.reducePow] at size ⊢
    omega
  have fraction : bits % Nat.pow 2 52 < 2 ^ 52 := Nat.mod_lt _ (by decide)
  refine Eq.trans ?_ whole
  unfold Parts.ofBits at finite ⊢
  clear whole
  generalize decide (bits / Nat.pow 2 63 % 2 = 1) = negative at finite ⊢
  generalize bits / Nat.pow 2 52 % Nat.pow 2 11 = biased at finite ⊢
  generalize bits % Nat.pow 2 52 = f at finite fraction ⊢
  dsimp only at finite ⊢
  split at finite
  · split at finite <;> cases finite
  · next number =>
    rw [if_neg number]
    split
    · next low =>
      split
      · next zero =>
        rw [Parts.bits, low, zero]
        omega
      · rw [Parts.bits, if_pos fraction, low, Nat.zero_mul, Nat.zero_add]
    · have carried : f + Nat.pow 2 52 = f + 2 ^ 52 := rfl
      have above : ¬ f + 2 ^ 52 < 2 ^ 52 := by omega
      have exponent : ((biased : Int) - 1075 + 1075).toNat = biased := by omega
      rw [Parts.bits, carried, if_neg above, exponent, Nat.add_sub_cancel]

theorem float_unique {x y : Float} (same : Parts.ofFloat x = Parts.ofFloat y)
    (finite : (Parts.ofFloat x).isFinite = true) : x = y := by
  have finite' : (Parts.ofFloat y).isFinite = true := same ▸ finite
  have bits : x.toBits.toNat = y.toBits.toNat := by
    rw [← bits_ofBits x.toBits.toNat_lt finite, ← bits_ofBits y.toBits.toNat_lt finite']
    exact congrArg Parts.bits same
  obtain ⟨⟨a, _⟩⟩ := x
  obtain ⟨⟨b, _⟩⟩ := y
  obtain rfl : a = b := UInt64.toNat_inj.mp bits
  rfl

end ScimQuery.Decimal
