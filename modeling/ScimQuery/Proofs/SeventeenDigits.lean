import ScimQuery.Proofs.ShortestDigits

/-!
# Seventeen digits

Seventeen digits always do: on the grid of the seventeenth digit one point next to a float lies in
the interval that rounds to it (`near_seventeenth`), so the shortest digits are never more
(`shortest_digits_le`).
-/

namespace ScimQuery.Decimal

/-! ### The leading digit -/

theorem width_bounds {n : Nat} (pos : 0 < n) :
    0 < width n ∧ 10 ^ (width n - 1) ≤ n ∧ n < 10 ^ width n := by
  induction n using width.induct with
  | case1 => exact absurd pos (lt_irrefl 0)
  | case2 n nonzero ih =>
    rw [width, if_neg nonzero, Nat.add_sub_cancel]
    by_cases single : n / 10 = 0
    · rw [single, width, if_pos rfl]
      omega
    · obtain ⟨more, low, high⟩ := ih (Nat.pos_of_ne_zero single)
      obtain ⟨w, length⟩ : ∃ w, width (n / 10) = w + 1 := ⟨width (n / 10) - 1, by omega⟩
      rw [length] at low high ⊢
      rw [Nat.add_sub_cancel] at low
      rw [Nat.pow_succ] at high
      simp only [Nat.pow_succ]
      omega

variable {q : ℚ} {n down : Nat}

theorem leading_of_le (pos : 0 < down) (ratio : q * down = n) (large : down ≤ n) :
    10 ^ ((width (n / down) : Int) - 1) ≤ q ∧ q < 10 ^ ((width (n / down) : Int) - 1 + 1) := by
  obtain ⟨some, low, high⟩ := width_bounds (Nat.div_pos large pos)
  obtain ⟨w, length⟩ : ∃ w, width (n / down) = w + 1 := ⟨width (n / down) - 1, by omega⟩
  rw [length, Nat.add_sub_cancel] at low
  rw [length] at high ⊢
  have positive : (0 : ℚ) < down := by exact_mod_cast pos
  have floor : (10 ^ w : ℚ) * down ≤ n := by exact_mod_cast (Nat.le_div_iff_mul_le pos).mp low
  have ceiling : (n : ℚ) < 10 ^ (w + 1) * down := by
    exact_mod_cast (Nat.div_lt_iff_lt_mul pos).mp high
  rw [← ratio] at floor ceiling
  have last : ((w + 1 : Nat) : Int) - 1 = w := by omega
  rw [sub_add_cancel, last, zpow_natCast, zpow_natCast]
  exact ⟨le_of_mul_le_mul_right floor positive, lt_of_mul_lt_mul_right ceiling positive.le⟩

theorem leading_of_lt (pos : 0 < n) (ratio : q * down = n) (small : n < down) :
    10 ^ (-(width ((down - 1) / n) : Int)) ≤ q ∧ q < 10 ^ (-(width ((down - 1) / n) : Int) + 1) := by
  obtain ⟨some, low, high⟩ := width_bounds (Nat.div_pos (by omega : n ≤ down - 1) pos)
  obtain ⟨w, length⟩ : ∃ w, width ((down - 1) / n) = w + 1 := ⟨width ((down - 1) / n) - 1, by omega⟩
  rw [length, Nat.add_sub_cancel] at low
  rw [length] at high ⊢
  have floor := (Nat.le_div_iff_mul_le pos).mp low
  have ceiling := (Nat.div_lt_iff_lt_mul pos).mp high
  have floor : (10 ^ w * n : ℚ) < down := by exact_mod_cast (by omega : 10 ^ w * n < down)
  have ceiling : (down : ℚ) ≤ 10 ^ (w + 1) * n := by
    exact_mod_cast (by omega : down ≤ 10 ^ (w + 1) * n)
  have positive : (0 : ℚ) < down := by exact_mod_cast (by omega : 0 < down)
  have last : -((w + 1 : Nat) : Int) + 1 = -w := by omega
  rw [← ratio] at floor ceiling
  have below : q * 10 ^ w < 1 := lt_of_mul_lt_mul_right (by linarith) positive.le
  have above : 1 ≤ q * 10 ^ (w + 1) := le_of_mul_le_mul_right (by linarith) positive
  rw [last, zpow_neg, zpow_neg, zpow_natCast, zpow_natCast, ← one_div, ← one_div,
    div_le_iff₀ (by positivity), lt_div_iff₀ (by positivity)]
  exact ⟨above, below⟩

namespace Binary

variable {v : Binary}

theorem leading_bounds (pos : 0 < v.mantissa) :
    10 ^ v.leading ≤ v.value ∧ v.value < 10 ^ (v.leading + 1) := by
  obtain ⟨posDown, part⟩ := power_eq 2 (by decide) (v.exponent - 2)
  have ratio : v.value * (power 2 (v.exponent - 2)).2 =
      (4 * v.mantissa * (power 2 (v.exponent - 2)).1 : Nat) := by
    push_cast at part ⊢
    rw [part, value, unit]
    ring
  have posUp : 0 < (power 2 (v.exponent - 2)).1 := by
    have positive : (0 : ℚ) < (power 2 (v.exponent - 2)).1 := by
      rw [part]
      positivity
    exact_mod_cast positive
  unfold leading quarter
  dsimp only
  split
  · next large => exact leading_of_le posDown ratio large
  · next small => exact leading_of_lt (by positivity) ratio (not_le.mp small)

/-- The last grid point that is not above the number. -/
def floor (v : Binary) (grid : Int) : Nat :=
  4 * v.mantissa * (v.scale grid).2 / (v.scale grid).1

theorem floor_bounds (v : Binary) (grid : Int) :
    v.floor grid * 10 ^ grid ≤ v.value ∧ v.value < (v.floor grid + 1) * 10 ^ grid := by
  obtain ⟨c, posC, step, part⟩ := v.scale_eq grid
  have exact : ((4 * v.mantissa * (v.scale grid).2 : Nat) : ℚ) = v.value * c := by
    push_cast
    rw [part, value]
    ring
  have posStep : 0 < (v.scale grid).1 := by
    have positive : (0 : ℚ) < (v.scale grid).1 := by
      rw [step]
      positivity
    exact_mod_cast positive
  have low := Nat.div_mul_le_self (4 * v.mantissa * (v.scale grid).2) (v.scale grid).1
  have high := Nat.lt_mul_div_succ (4 * v.mantissa * (v.scale grid).2) posStep
  change v.floor grid * _ ≤ _ at low
  change _ < _ * (v.floor grid + 1) at high
  rw [← Nat.cast_le (α := ℚ), exact, Nat.cast_mul, step, ← mul_assoc] at low
  rw [← Nat.cast_lt (α := ℚ), exact, Nat.cast_mul, step, Nat.cast_add_one, mul_comm (_ * c),
    ← mul_assoc] at high
  exact ⟨le_of_mul_le_mul_right low posC, lt_of_mul_lt_mul_right high posC.le⟩

theorem near_eq_none {tie : Tie} {grid : Int} (h : v.near tie grid = none) :
    v.readsBack grid (v.floor grid) = false ∧ v.readsBack grid (v.floor grid + 1) = false := by
  unfold near at h
  dsimp only at h
  split at h
  · split at h <;> cases h
  · cases h
  · cases h
  · next below above => exact ⟨below, above⟩

theorem near_digits_le {tie : Tie} {grid : Int} {d : Digits} (h : v.near tie grid = some d) :
    d.digits ≤ v.floor grid + 1 := by
  unfold near at h
  dsimp only at h
  split at h
  · split at h
    · obtain rfl := Option.some.inj h
      exact Nat.le_succ _
    · obtain rfl := Option.some.inj h
      exact Nat.le_refl _
  · obtain rfl := Option.some.inj h
    exact Nat.le_succ _
  · obtain rfl := Option.some.inj h
    exact Nat.le_refl _
  · cases h

/-- The interval of a float is longer than a step of the grid with its seventeenth digit. -/
theorem step_lt_interval (hv : v.Double) : (10 : ℚ) ^ (v.leading - 16) < v.high - v.low := by
  have leads := (leading_bounds hv.pos).1
  have shifted : (10 : ℚ) ^ v.leading = 10 ^ (v.leading - 16) * 10 ^ 16 := by
    rw [zpow_sub₀ (by norm_num)]
    norm_num
  have positive := v.unit_pos
  rw [shifted, value] at leads
  unfold high low
  by_cases narrow : v.narrowBelow = true
  · have least : (v.mantissa : ℚ) = 2 ^ 52 := by exact_mod_cast (hv.narrow.mp narrow).1
    rw [if_pos narrow]
    rw [least] at leads ⊢
    linarith
  · have greatest : (v.mantissa : ℚ) < 2 ^ 53 := by exact_mod_cast hv.small
    have bound : v.mantissa * v.unit < 2 ^ 53 * v.unit := mul_lt_mul_of_pos_right greatest positive
    rw [if_neg narrow]
    linarith

theorem near_seventeenth (hv : v.Double) (tie : Tie) : (v.near tie (v.leading - 16)).isSome := by
  cases found : v.near tie (v.leading - 16) with
  | some d => rfl
  | none =>
    obtain ⟨below, above⟩ := near_eq_none found
    rw [← Bool.not_eq_true, readsBack_iff hv.pos] at below above
    obtain ⟨low, high⟩ := v.floor_bounds (v.leading - 16)
    obtain ⟨low', high'⟩ := v.value_between
    have wide := step_lt_interval hv
    -- neither neighbour reads back, so the interval lies between them
    have lower : v.floor (v.leading - 16) * 10 ^ (v.leading - 16) ≤ v.low := by
      by_contra inside
      exact below (.of_lt (not_le.mp inside) (low.trans_lt high'))
    have upper : v.high ≤ (v.floor (v.leading - 16) + 1 : Nat) * 10 ^ (v.leading - 16) := by
      by_contra inside
      push_cast at above inside
      exact above (.of_lt (low'.trans high) (not_le.mp inside))
    push_cast at upper
    linarith

theorem floor_lt (pos : 0 < v.mantissa) (n : Nat) : v.floor (v.leading - n) < 10 ^ (n + 1) := by
  have below := (v.floor_bounds (v.leading - n)).1.trans_lt (leading_bounds pos).2
  have shifted : (10 : ℚ) ^ (v.leading + 1) = 10 ^ (n + 1) * 10 ^ (v.leading - n) := by
    rw [← zpow_natCast, ← zpow_add₀ (by norm_num)]
    congr 1
    omega
  rw [shifted] at below
  exact_mod_cast lt_of_mul_lt_mul_right below (by positivity)

end Binary

theorem Digits.strip_digits_le (d : Digits) : d.strip.digits ≤ d.digits := by
  induction d using Digits.strip.induct with
  | case1 d solid => rw [Digits.strip, if_pos solid]
  | case2 d zeros ih =>
    rw [Digits.strip, if_neg zeros]
    exact ih.trans (Nat.div_le_self _ _)

/-- No float needs more than seventeen digits. -/
theorem Binary.shortest_digits_le {v : Binary} (hv : v.Double) (tie : Tie) :
    (v.shortest tie).digits ≤ 10 ^ 17 := by
  rw [shortest]
  refine (Digits.strip_digits_le _).trans ?_
  cases found : (List.range 17).findSome? fun n : Nat => v.near tie (v.leading - n) with
  | none =>
    have last := List.findSome?_eq_none_iff.mp found 16 (by decide)
    have some := near_seventeenth hv tie
    rw [show v.leading - 16 = v.leading - (16 : Nat) from rfl, last] at some
    cases some
  | some d =>
    obtain ⟨n, few, near⟩ := List.exists_of_findSome?_eq_some found
    have below := floor_lt hv.pos n
    have greatest : 10 ^ (n + 1) ≤ 10 ^ 17 :=
      Nat.pow_le_pow_right (by decide) (List.mem_range.mp few)
    exact (near_digits_le near).trans (Nat.succ_le_of_lt (below.trans_le greatest))

end ScimQuery.Decimal
