/-!
# Operators

The comparison operators of SCIM filters with their SQL counterparts, and the connectives.
-/

namespace ScimQuery

inductive Operator where
  | eq | ne | co | sw | ew | pr | gt | ge | lt | le
  deriving DecidableEq

namespace Operator

def name : Operator → String
  | eq => "eq"
  | ne => "ne"
  | co => "co"
  | sw => "sw"
  | ew => "ew"
  | pr => "pr"
  | gt => "gt"
  | ge => "ge"
  | lt => "lt"
  | le => "le"

def all : List Operator := [eq, ne, co, sw, ew, pr, gt, ge, lt, le]

def sql : Operator → String
  | eq => "="
  | ne => "!="
  | co | sw | ew => "LIKE"
  | pr => "IS NOT NULL"
  | gt => ">"
  | ge => ">="
  | lt => "<"
  | le => "<="

/-- What a pattern operator puts before and behind the value. -/
def wildcards : Operator → Option (String × String)
  | co => some ("%", "%")
  | sw => some ("", "%")
  | ew => some ("%", "")
  | _ => none

end Operator

inductive Connective where
  | and | or
  deriving DecidableEq

namespace Connective

def name : Connective → String
  | and => "and"
  | or => "or"

def all : List Connective := [and, or]

def sql : Connective → String
  | and => "AND"
  | or => "OR"

end Connective

end ScimQuery
