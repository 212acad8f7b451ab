import ScimQuery.Text.Hidden
import ScimQuery.Decimal.Layout

/-!
# JSON values

A JSON text as a value, and the texts that a value is written as. Members keep the order in which
they are written, and a name may occur more than once.
-/

namespace ScimQuery

/-- Whole numbers within 64 bits, signed or not, stay whole. All others are floats. -/
inductive Json.Number where
  | integer (n : Int)
  | decimal (x : Float)

inductive Json where
  | null
  | bool (b : Bool)
  | number (n : Json.Number)
  | string (s : String)
  | array (items : List Json)
  | object (members : List (String × Json))

namespace Json

def integer (n : Int) : Json := .number (.integer n)

def decimal (x : Float) : Json := .number (.decimal x)

/-- A field that is left out when there is nothing to write. -/
def optional (name : String) (write : α → Json) : Option α → List (String × Json)
  | none => []
  | some a => [(name, write a)]

/-! ### Writing

The compact text has no blanks, and the pretty text one member or element a line. -/

/-- Floats from 0.00001 up to below ten to the 16th have a point; all others have an exponent. -/
def floatLayout : Decimal.Layout := ⟨fun e => -5 ≤ e && e ≤ 15, ".0", .even⟩

/-- JSON has no text for infinities and for what is no number. -/
def Number.write : Number → String
  | .integer n => toString n
  | .decimal x => (floatLayout.write x).getD "null"

/-- Quotes, backslashes and controls are escaped, nothing else. -/
def escapedChar (c : Char) : List Char :=
  match c with
  | '"' => ['\\', '"']
  | '\\' => ['\\', '\\']
  | '\x08' => ['\\', 'b']
  | '\x0c' => ['\\', 'f']
  | '\n' => ['\\', 'n']
  | '\r' => ['\\', 'r']
  | '\t' => ['\\', 't']
  | c =>
    if c.toNat < 0x10 then ['\\', 'u', '0', '0', '0'] ++ Text.hex c.toNat
    else if c.toNat < 0x20 then ['\\', 'u', '0', '0'] ++ Text.hex c.toNat
    else [c]

def writeText (s : String) : String := "\"" ++ String.ofList (s.toList.flatMap escapedChar) ++ "\""

mutual

def compact : Json → String
  | null => "null"
  | bool b => if b then "true" else "false"
  | number n => n.write
  | string s => writeText s
  | array items => "[" ++ ",".intercalate (compactItems items) ++ "]"
  | object members => "\x7b" ++ ",".intercalate (compactMembers members) ++ "\x7d"

def compactItems : List Json → List String
  | [] => []
  | j :: js => j.compact :: compactItems js

def compactMembers : List (String × Json) → List String
  | [] => []
  | (k, j) :: ms => (writeText k ++ ":" ++ j.compact) :: compactMembers ms

end

/-- A line break and the indentation of a level. -/
def newline (level : Nat) : String := "\n" ++ String.ofList (List.replicate (2 * level) ' ')

/-- Lines between brackets; nothing stands between the brackets of an empty list. -/
def block (left right : String) (level : Nat) (lines : List String) : String :=
  if lines.isEmpty then left ++ right
  else left ++ newline (level + 1) ++ ("," ++ newline (level + 1)).intercalate lines
    ++ newline level ++ right

mutual

def prettyAt (level : Nat) : Json → String
  | null => "null"
  | bool b => if b then "true" else "false"
  | number n => n.write
  | string s => writeText s
  | array items => block "[" "]" level (prettyItems (level + 1) items)
  | object members => block "\x7b" "\x7d" level (prettyMembers (level + 1) members)

def prettyItems (level : Nat) : List Json → List String
  | [] => []
  | j :: js => j.prettyAt level :: prettyItems level js

def prettyMembers (level : Nat) : List (String × Json) → List String
  | [] => []
  | (k, j) :: ms => (writeText k ++ ": " ++ j.prettyAt level) :: prettyMembers level ms

end

def pretty (j : Json) : String := j.prettyAt 0

end Json

end ScimQuery
