/-!
# Shortest digits

A float is taken apart into sign, mantissa and power of two, and all questions about its digits are
asked of these whole numbers. Its shortest digits are the decimal with the fewest digits that reads
back as it. Of two such decimals the nearer one is taken; when both are equally near, the caller
says which.
-/

namespace ScimQuery.Decimal

/-! ### Binary numbers -/

/-- The positive number `mantissa * 2 ^ exponent`. -/
structure Binary where
  mantissa : Nat
  exponent : Int
  /-- The next smaller float is half as far away as the next larger one. -/
  narrowBelow : Bool

inductive Parts where
  | nan
  | infinite (negative : Bool)
  | zero (negative : Bool)
  | finite (negative : Bool) (value : Binary)

/-- One bit of sign, eleven of exponent and 52 of fraction. -/
def Parts.ofBits (bits : Nat) : Parts :=
  let negative : Bool := bits / Nat.pow 2 63 % 2 = 1
  let biased : Nat := bits / Nat.pow 2 52 % Nat.pow 2 11
  let fraction : Nat := bits % Nat.pow 2 52
  if biased = 2047 then
    if fraction = 0 then .infinite negative else .nan
  else if biased = 0 then
    if fraction = 0 then .zero negative else .finite negative ⟨fraction, -1074, false⟩
  else .finite negative ⟨fraction + Nat.pow 2 52, (biased : Int) - 1075, fraction = 0 && 1 < biased⟩

def Parts.ofFloat (x : Float) : Parts := .ofBits x.toBits.toNat

/-! ### Digits -/

/-- The number `digits * 10 ^ exponent`. -/
structure Digits where
  digits : Nat
  exponent : Int
  deriving DecidableEq

/-- What to do with two decimals that are equally near. -/
inductive Tie where
  | up
  | even
  deriving DecidableEq

/-- How many digits a number has; zero has none. -/
def width (n : Nat) : Nat := if n = 0 then 0 else width (n / 10) + 1

/-- `base ^ exponent` as a numerator and a denominator. -/
def power (base : Nat) (exponent : Int) : Nat × Nat :=
  if 0 ≤ exponent then (Nat.pow base exponent.toNat, 1) else (1, Nat.pow base (-exponent).toNat)

namespace Binary

/-- The unit in which the number is `4 * mantissa`: a quarter of the last binary place. -/
def quarter (v : Binary) : Nat × Nat := power 2 (v.exponent - 2)

/-- The decimal exponent of the leading digit. -/
def leading (v : Binary) : Int :=
  let (up, down) := v.quarter
  let n := 4 * v.mantissa * up
  if down ≤ n then width (n / down) - 1 else -(width ((down - 1) / n) : Int)

/-- The number in units of a grid: a grid step is `step` and a quarter is `part`. -/
def scale (v : Binary) (grid : Int) : Nat × Nat :=
  let (up, down) := v.quarter
  let (tenUp, tenDown) := power 10 grid
  (tenUp * down, up * tenDown)

/-- Whether the `n`-th point of the grid lies in the interval that rounds to the number. The ends
belong to it when the mantissa is even. -/
def readsBack (v : Binary) (grid : Int) (n : Nat) : Bool :=
  let (step, part) := v.scale grid
  let low := (4 * v.mantissa - if v.narrowBelow then 1 else 2) * part
  let high := (4 * v.mantissa + 2) * part
  if v.mantissa % 2 = 0 then low ≤ n * step && n * step ≤ high
  else low < n * step && n * step < high

/-- Of the two grid points around the number, the one that reads back; of two, the nearer. -/
def near (v : Binary) (tie : Tie) (grid : Int) : Option Digits :=
  let (step, part) := v.scale grid
  let exact := 4 * v.mantissa * part
  let below := exact / step
  let above := below + 1
  match v.readsBack grid below, v.readsBack grid above with
  | true, true =>
    let down := exact - below * step
    let up := above * step - exact
    if down < up || (down = up && tie = .even && below % 2 = 0) then some ⟨below, grid⟩
    else some ⟨above, grid⟩
  | true, false => some ⟨below, grid⟩
  | false, true => some ⟨above, grid⟩
  | false, false => none

/-- All digits of the number. -/
def exact (v : Binary) : Digits :=
  if 0 ≤ v.exponent then ⟨v.mantissa * Nat.pow 2 v.exponent.toNat, 0⟩
  else ⟨v.mantissa * Nat.pow 5 (-v.exponent).toNat, v.exponent⟩

end Binary

/-- Moves the zeros at the end of the digits into the exponent. -/
def Digits.strip (d : Digits) : Digits :=
  if d.digits = 0 ∨ d.digits % 10 ≠ 0 then d else strip ⟨d.digits / 10, d.exponent + 1⟩
termination_by d.digits

/-- Tries one digit, then two, and so on up to seventeen, which always do. -/
def Binary.shortest (v : Binary) (tie : Tie) : Digits :=
  (((List.range 17).findSome? fun n : Nat => v.near tie (v.leading - n)).getD v.exact).strip

end ScimQuery.Decimal
