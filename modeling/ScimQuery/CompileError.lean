import ScimQuery.Column
import ScimQuery.Filter

/-!
# Why a filter or an order is refused
-/

namespace ScimQuery

inductive CompileError where
  /-- No column stands behind the attribute. -/
  | unmapped (subject : String)
  | unsupported (kind : NodeKind)
  /-- The value does not fit the declared type of the column. -/
  | coercion (subject : String) (declared : ColumnType) (value : Scalar)
  | missingValue (subject : String) (operator : Operator)
  | invalidDirection (text : String)
  | unsortable (subject : String)
  /-- The filter is no JSON, or JSON of another shape. -/
  | unreadable (message : String)

namespace CompileError

/-- A filter that cannot be read. The message tells the kind of the error and leaves out its place
in the text. -/
def ofRead (cause : Json.ReadError) : CompileError := unreadable cause.message

def message : CompileError → String
  | unmapped subject => "Invalid/unmapped field supplied: " ++ subject
  | unsupported kind => "Unsupported filter node: " ++ kind.name
  | coercion subject declared value =>
    "Cannot bind " ++ value.kind ++ " value '" ++ value.text ++ "' to " ++ subject
      ++ " (declared " ++ declared.name ++ ")"
  | missingValue subject operator =>
    "Operator '" ++ operator.name ++ "' on " ++ subject ++ " requires a compare value"
  | invalidDirection text => "Invalid order direction '" ++ text ++ "'. Use 'asc' or 'desc'"
  | unsortable subject => "Cannot order by: " ++ subject
  | unreadable message => "Filter parse error: " ++ message

/-- A stable code for clients. -/
def code : CompileError → String
  | unmapped _ => "INVALID_FILTER_FIELD"
  | unsupported _ => "UNSUPPORTED_FILTER"
  | coercion .. | missingValue .. => "INVALID_FILTER_VALUE"
  | invalidDirection _ | unsortable _ => "INVALID_ORDER"
  | unreadable _ => "INVALID_FILTER_SYNTAX"

end CompileError

end ScimQuery
