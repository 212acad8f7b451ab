/-!
# Numbers in digits

Natural numbers, which texts are numbers at all, and the float for a significand and an exponent.
-/

namespace ScimQuery.Decimal

def digitValue (c : Char) : Nat := c.toNat - '0'.toNat

def hexValue (c : Char) : Option Nat :=
  if c.isDigit then some (digitValue c)
  else if 'a' ≤ c && c ≤ 'f' then some (c.toNat - 'a'.toNat + 10)
  else if 'A' ≤ c && c ≤ 'F' then some (c.toNat - 'A'.toNat + 10)
  else none

/-- The number with these digits, the highest first. -/
def ofDigits (ds : List Nat) : Nat := ds.foldl (fun n d => n * 10 + d) 0

/-- The number that a text of digits spells. Zeros in front do not count. -/
def natural? (text : List Char) : Option Nat :=
  if text.isEmpty || !text.all Char.isDigit then none
  else some (ofDigits (text.map digitValue))

/-- A number of 64 bits; it may have a plus in front. -/
def uint64? (text : String) : Option UInt64 :=
  let digits := match text.toList with
    | '+' :: cs => cs
    | cs => cs
  (natural? digits).bind fun n => if n < UInt64.size then some n.toUInt64 else none

/-! ### Numerals -/

def dropSign : List Char → List Char
  | '+' :: text | '-' :: text => text
  | text => text

/-- An exponent, or nothing. -/
def isExponent : List Char → Bool
  | [] => true
  | e :: text => (e = 'e' || e = 'E') && (natural? (dropSign text)).isSome

/-- Digits with a point anywhere, and an exponent. -/
def isPositional (text : List Char) : Bool :=
  let whole := text.takeWhile Char.isDigit
  match text.dropWhile Char.isDigit with
  | '.' :: rest =>
    !(whole ++ rest.takeWhile Char.isDigit).isEmpty && isExponent (rest.dropWhile Char.isDigit)
  | rest => !whole.isEmpty && isExponent rest

/-- Whether a text is a number with or without a sign, or a word for none or for an infinite one. -/
def isNumeral (text : String) : Bool :=
  let unsigned := dropSign text.toList
  isPositional unsigned
    || ["nan", "inf", "infinity"].contains (String.ofList (unsigned.map Char.toLower))

/-! ### Scaled significands

The float for a whole significand and a power of ten has one rounding for the significand and one
for each scaling. This is not always the float nearest to the decimal. -/

/-- The float nearest to a power of ten. -/
def tenTo (n : Nat) : Float := Float.ofScientific 1 false n

def whole (n : Nat) : Float := Float.ofScientific n false 0

/-- The largest power of ten that is a float has this exponent. -/
def topExponent : Nat := 308

/-- `significand * 10 ^ exponent`. None when it is too large for a float; what is too small is zero.
Below the reach of one power of ten the significand is scaled down twice. -/
def scaled (significand : Nat) (exponent : Int) : Option Float :=
  let n := exponent.natAbs
  if 0 ≤ exponent then
    if n ≤ topExponent then
      let x := whole significand * tenTo n
      if x.isInf then none else some x
    else if significand = 0 then some 0.0 else none
  else if n ≤ topExponent then some (whole significand / tenTo n)
  else if n ≤ 2 * topExponent then
    some (whole significand / tenTo topExponent / tenTo (n - topExponent))
  else some 0.0

end ScimQuery.Decimal
