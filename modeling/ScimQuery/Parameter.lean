import ScimQuery.CompileError
import ScimQuery.Json

/-!
# Parameters

The value bound to a placeholder, made from the value of a condition and the type of the column.
-/

namespace ScimQuery

inductive Parameter where
  | int (n : Int32)
  | int64 (n : Int64)
  | bool (b : Bool)
  | float (x : Float)
  | text (s : String)
  | null

namespace Parameter

def display : Parameter → String
  | int n => toString n.toInt
  | int64 n => toString n.toInt
  | bool b => if b then "true" else "false"
  | float x => Decimal.plainText x
  | text s => s
  | null => "NULL"

def toJson : Parameter → Json
  | int n => .integer n.toInt
  | int64 n => .integer n.toInt
  | bool b => .bool b
  | float x => .decimal x
  | text s => .string s
  | null => .null

def ofScalar : Scalar → Parameter
  | .bool b => bool b
  | .integer n => int64 n
  | .decimal x => float x
  | .string s => text s
  | .null => null

/-- Fits a value to a column type. Text columns take any value as it is. -/
def coerce? (declared : ColumnType) (value : Scalar) : Option Parameter :=
  match declared, value with
  | .int, .integer n =>
    if Int32.minValue.toInt ≤ n.toInt && n.toInt ≤ Int32.maxValue.toInt then some (int n.toInt32)
    else none
  | .int64, .integer n => some (int64 n)
  | .bool, .bool b => some (bool b)
  | .string, value => some (ofScalar value)
  | _, _ => none

end Parameter

/-- The parameter of a condition on a column: none for presence, a pattern for the pattern
operators, else the value fitted to the column type. -/
def Condition.bind (c : Condition) (column : Column) : Except CompileError (Option Parameter) :=
  if c.operator = .pr then .ok none
  else
    match c.value with
    | none => .error (.missingValue c.path.toAttribute.text c.operator)
    | some value =>
      match c.operator.wildcards with
      | some (before, behind) => .ok (some (.text (before ++ value.text ++ behind)))
      | none =>
        match Parameter.coerce? column.type value with
        | some p => .ok (some p)
        | none => .error (.coercion c.path.toAttribute.text column.type value)

end ScimQuery
