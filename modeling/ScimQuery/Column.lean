import ScimQuery.Json.Record

/-!
# Columns

The database column behind an attribute, and its JSON form. A column without a type is a text
column, and columns are not sortable unless they say so.
-/

namespace ScimQuery

/-- The declared type of a column decides which values may be compared with it. -/
inductive ColumnType where
  | int | int64 | bool | string
  deriving DecidableEq

def ColumnType.name : ColumnType → String
  | int => "int"
  | int64 => "int64"
  | bool => "bool"
  | string => "string"

def ColumnType.all : List ColumnType := [int, int64, bool, string]

structure Column where
  column : String
  type : ColumnType := .string
  sortable : Bool := false
  deriving DecidableEq

/-- A plain identifier: a letter or underscore, then letters, digits and underscores. -/
def isIdentifier : List Char → Bool
  | [] => false
  | c :: cs => (c.isAlpha || c = '_') && cs.all fun c => c.isAlphanum || c = '_'

def dotted : List Char → List (List Char)
  | [] => [[]]
  | '.' :: cs => [] :: dotted cs
  | c :: cs =>
    match dotted cs with
    | [] => [[c]]
    | part :: parts => (c :: part) :: parts

/-- Identifiers of ASCII characters joined by dots, such as `t.id`. -/
def isColumnName (s : String) : Bool := (dotted s.toList).all isIdentifier

/-! ### Columns as JSON -/

open Json

def ColumnType.names : List (String × ColumnType) := all.map fun t => (t.name, t)

def ColumnType.read (depth : Nat) : Reader ColumnType := readName names depth

namespace Column

def toJson (c : Column) : Json :=
  .object [("column", .string c.column), ("type", .string c.type.name),
    ("sortable", .bool c.sortable)]

def title : String := "struct ColumnMapping"

structure Draft where
  column : Option String := none
  type : Option ColumnType := none
  sortable : Option Bool := none

def Draft.finish (d : Draft) : Except ReadError Column := do
  return ⟨← required "column" d.column, d.type.getD .string, d.sortable.getD false⟩

def readField (depth : Nat) (name : String) (d : Draft) : Reader Draft := fun text => do
  match name with
  | "column" =>
    let (s, rest) ← field name d.column readString text
    return ({ d with column := some s }, rest)
  | "type" =>
    let (t, rest) ← field name d.type (ColumnType.read depth) text
    return ({ d with type := some t }, rest)
  | "sortable" =>
    let (b, rest) ← field name d.sortable readBool text
    return ({ d with sortable := some b }, rest)
  | _ => otherField d text

def read (depth : Nat) : Reader Column :=
  opened title depth
    (fun depth text => do
      let (column, rest) ← itemField true (tooShort title 3 0) readString text
      let (type, rest) ← itemField false (.ok .string) (ColumnType.read depth) rest
      let (sortable, rest) ← itemField false (.ok false) readBool rest
      return (⟨column, type, sortable⟩, ← closeList rest))
    (fun depth text => do
      let (d, rest) ← members (readField depth) {} text
      return (← d.finish, rest))

end Column

end ScimQuery
