import ScimQuery.Json.ReadError
import ScimQuery.Decimal.Natural

/-!
# The words of a JSON text

Blanks, literal words, numbers and texts, each read off the front of the characters that are left.
-/

namespace ScimQuery.Json

/-- What a step reads off the front, and what is left. -/
abbrev Scan (α : Type) := List Char → Except Malformed (α × List Char)

def isSpace (c : Char) : Bool := c = ' ' || c = '\n' || c = '\t' || c = '\r'

def skipSpace (text : List Char) : List Char := text.dropWhile isSpace

/-- Takes the rest of a literal word whose first letter has been seen. -/
def scanWord : List Char → List Char → Except Malformed (List Char)
  | [], text => .ok text
  | _ :: _, [] => .error .endInValue
  | w :: word, c :: text => if c = w then scanWord word text else .error .expectedWord

/-! ### Numbers -/

def scanDigits (text : List Char) : List Nat × List Char :=
  ((text.takeWhile Char.isDigit).map Decimal.digitValue, text.dropWhile Char.isDigit)

def scanSomeDigits : Scan (List Nat)
  | [] => .error .endInNumber
  | c :: text => if c.isDigit then .ok (scanDigits (c :: text)) else .error .badNumber

/-- At least one digit, and no other digit behind a leading zero. -/
def scanWhole : Scan (List Nat)
  | '0' :: c :: text => if c.isDigit then .error .badNumber else .ok ([0], c :: text)
  | text => scanSomeDigits text

/-- A number as it is written, without its sign. -/
structure Numeral where
  whole : List Nat
  fraction : Option (List Nat)
  exponent : Option Int

def scanFraction : Scan (Option (List Nat))
  | '.' :: text => (scanSomeDigits text).map fun (ds, rest) => (some ds, rest)
  | text => .ok (none, text)

def scanSignedDigits : Scan Int
  | '+' :: text => (scanSomeDigits text).map fun (ds, rest) => ((Decimal.ofDigits ds : Int), rest)
  | '-' :: text => (scanSomeDigits text).map fun (ds, rest) => (-(Decimal.ofDigits ds : Int), rest)
  | text => (scanSomeDigits text).map fun (ds, rest) => ((Decimal.ofDigits ds : Int), rest)

def scanExponent : Scan (Option Int)
  | 'e' :: text | 'E' :: text => (scanSignedDigits text).map fun (e, rest) => (some e, rest)
  | text => .ok (none, text)

def scanNumeral : Scan Numeral := fun text => do
  let (whole, text) ← scanWhole text
  let (fraction, text) ← scanFraction text
  let (exponent, text) ← scanExponent text
  return (⟨whole, fraction, exponent⟩, text)

/-- Takes digits into a significand while it has 64 bits; the other digits are left over. -/
def absorb : Nat → List Nat → Nat × List Nat
  | s, [] => (s, [])
  | s, d :: ds => if s * 10 + d < UInt64.size then absorb (s * 10 + d) ds else (s, d :: ds)

/-- Without fraction and exponent a number stays whole if it has 64 bits; but no whole number is
minus zero. -/
def Numeral.value (n : Numeral) (negative : Bool) : Option Number :=
  let (s, dropped) := absorb 0 n.whole
  if n.fraction.isNone && n.exponent.isNone && dropped.isEmpty then
    if !negative then some (.integer s)
    else if 0 < s && s ≤ Nat.pow 2 63 then some (.integer (-s))
    else some (.decimal (-Decimal.whole s))
  else
    let fraction := n.fraction.getD []
    let (s, unused) := absorb s fraction
    let places : Int := dropped.length - (fraction.length - unused.length)
    (Decimal.scaled s (places + n.exponent.getD 0)).map fun x =>
      .decimal (if negative then -x else x)

def scanNumber (negative : Bool) : Scan Number := fun text => do
  let (numeral, rest) ← scanNumeral text
  match numeral.value negative with
  | some n => .ok (n, rest)
  | none => .error .numberTooLarge

/-! ### Texts -/

def hexUnit (a b c d : Char) : Option Nat := do
  let a ← Decimal.hexValue a
  let b ← Decimal.hexValue b
  let c ← Decimal.hexValue c
  let d ← Decimal.hexValue d
  return ((a * 16 + b) * 16 + c) * 16 + d

/-- Why no four hexadecimal digits could be taken: they are wrong, or fewer than four bytes are
left. -/
def badHex (text : List Char) : Malformed :=
  if (String.ofList text).utf8ByteSize < 4 then .endInText else .badEscape

def escapedBy (c : Char) : Option Char :=
  match c with
  | '"' => some '"'
  | '\\' => some '\\'
  | '/' => some '/'
  | 'b' => some '\x08'
  | 'f' => some '\x0c'
  | 'n' => some '\n'
  | 'r' => some '\r'
  | 't' => some '\t'
  | _ => none

def isLeading (unit : Nat) : Bool := 0xD800 ≤ unit && unit < 0xDC00

def isTrailing (unit : Nat) : Bool := 0xDC00 ≤ unit && unit < 0xE000

/-- The character of two surrogate units. -/
def pairChar (high low : Nat) : Char :=
  Char.ofNat ((high - 0xD800) * 0x400 + (low - 0xDC00) + 0x10000)

/-- Puts a character in front of what the rest of a text reads as. -/
def consChar (c : Char) (rest : Except Malformed (List Char × List Char)) :
    Except Malformed (List Char × List Char) :=
  rest.map fun (cs, left) => (c :: cs, left)

/-- The characters of a text behind its opening quote, up to the closing one. -/
def scanText : Scan (List Char)
  | [] => .error .endInText
  | '"' :: rest => .ok ([], rest)
  | '\\' :: 'u' :: a :: b :: c :: d :: rest =>
    match hexUnit a b c d with
    | none => .error .badEscape
    | some unit =>
      if isTrailing unit then .error .loneSurrogate
      else if isLeading unit then
        match rest with
        | '\\' :: 'u' :: e :: f :: g :: h :: rest =>
          match hexUnit e f g h with
          | none => .error .badEscape
          | some low =>
            if isTrailing low then consChar (pairChar unit low) (scanText rest)
            else .error .loneSurrogate
        | '\\' :: 'u' :: rest => .error (badHex rest)
        | [] | ['\\'] => .error .endInText
        | _ => .error .halfEscape
      else consChar (Char.ofNat unit) (scanText rest)
  | '\\' :: 'u' :: rest => .error (badHex rest)
  | ['\\'] => .error .endInText
  | '\\' :: c :: rest =>
    match escapedBy c with
    | some e => consChar e (scanText rest)
    | none => .error .badEscape
  | c :: rest => if c.toNat < 0x20 then .error .control else consChar c (scanText rest)

def scanString : Scan String := fun text =>
  (scanText text).map fun (cs, rest) => (String.ofList cs, rest)

end ScimQuery.Json
