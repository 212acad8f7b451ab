import ScimQuery.Decimal.Shortest

/-!
# Written decimals

How the shortest digits of a float are laid out: with a point inside, before or behind the digits,
or with an exponent.
-/

namespace ScimQuery.Decimal

/-- The decisions of one written form. -/
structure Layout where
  /-- Which exponents of the leading digit do without an exponent part. -/
  positional : Int → Bool
  /-- What follows the digits of a whole number. -/
  wholeTail : String
  tie : Tie

def zeros (n : Nat) : List Char := List.replicate n '0'

/-- The decimal digits of a number, the highest first. -/
def digitText (n : Nat) : List Char := Nat.toDigits 10 n

namespace Layout

/-- Digits with a point before, between or behind them. -/
def positionalText (layout : Layout) (d : Digits) : List Char :=
  let text := digitText d.digits
  let leading := d.exponent + text.length - 1
  if 0 ≤ d.exponent then text ++ zeros d.exponent.toNat ++ layout.wholeTail.toList
  else if 0 ≤ leading then
    text.take (leading.toNat + 1) ++ ['.'] ++ text.drop (leading.toNat + 1)
  else ['0', '.'] ++ zeros (-leading - 1).toNat ++ text

/-- A digit, the other digits behind a point, and the exponent with its sign. -/
def exponentText (d : Digits) : List Char :=
  let text := digitText d.digits
  let leading := d.exponent + text.length - 1
  let mantissa := if text.length = 1 then text else text.take 1 ++ ['.'] ++ text.drop 1
  mantissa ++ ['e', if 0 ≤ leading then '+' else '-'] ++ digitText leading.natAbs

def digits (layout : Layout) (d : Digits) : List Char :=
  if layout.positional (d.exponent + (digitText d.digits).length - 1) then layout.positionalText d
  else exponentText d

def sign (negative : Bool) : List Char := if negative then ['-'] else []

/-- The text of a finite float; the sign of zero is kept. -/
def write (layout : Layout) (x : Float) : Option String :=
  match Parts.ofFloat x with
  | .nan | .infinite _ => none
  | .zero negative => some (String.ofList (sign negative ++ ['0'] ++ layout.wholeTail.toList))
  | .finite negative v =>
    some (String.ofList (sign negative ++ layout.digits (v.shortest layout.tie)))

/-- Never an exponent, and no point in a whole number. -/
def plain : Layout := ⟨fun _ => true, "", .up⟩

end Layout

/-- The plain text of any float. -/
def plainText (x : Float) : String :=
  match Parts.ofFloat x with
  | .nan => "NaN"
  | .infinite negative => String.ofList (Layout.sign negative ++ "inf".toList)
  | _ => (Layout.plain.write x).getD ""

end ScimQuery.Decimal
