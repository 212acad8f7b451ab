import ScimQuery.Attribute
import ScimQuery.Operator
import ScimQuery.Json

/-!
# Filters

The tree of a SCIM list filter: conditions on attributes joined by connectives. A value path such
as `emails[type eq "work"]` puts a filter inside the scope of an attribute.
-/

namespace ScimQuery

/-! ### Values to compare with -/

inductive Scalar where
  | bool (b : Bool)
  | integer (n : Int64)
  | decimal (x : Float)
  | string (s : String)
  | null

namespace Scalar

/-- The kind of a value, for messages. -/
def kind : Scalar → String
  | bool _ => "bool"
  | integer _ => "integer"
  | decimal _ => "decimal"
  | string _ => "string"
  | null => "null"

/-- The text of a value; texts are not quoted. -/
def text : Scalar → String
  | bool b => if b then "true" else "false"
  | integer n => toString n.toInt
  | decimal x => Decimal.plainText x
  | string s => s
  | null => "null"

end Scalar

/-! ### Trees -/

/-- `path operator value`; presence needs no value. -/
structure Condition where
  path : AttributePath
  operator : Operator
  value : Option Scalar := none

inductive Filter where
  | condition (c : Condition)
  | logical (left : Filter) (connective : Connective) (right : Filter)
  | valuePath (path : AttributePath) (inner : Filter)
  | negation (inner : Filter)

/-- The kinds of nodes, which are also the names of their JSON forms. -/
inductive NodeKind where
  | logical | condition | valuePath | negation
  deriving DecidableEq

def NodeKind.name : NodeKind → String
  | .logical => "logical"
  | .condition => "attribute"
  | .valuePath => "value_path"
  | .negation => "not"

def NodeKind.all : List NodeKind := [.logical, .condition, .valuePath, .negation]

namespace Filter

def kind : Filter → NodeKind
  | condition _ => .condition
  | logical .. => .logical
  | valuePath .. => .valuePath
  | negation _ => .negation

def condition? : Filter → Option Condition
  | condition c => some c
  | _ => none

end Filter

/-! ### Filters as JSON

A node is an object whose first member names its kind. What is absent is left out. -/

def AttributePath.toJson (p : AttributePath) : Json :=
  .object (Json.optional "uri" .string p.schema ++ [("name", .string p.name)]
    ++ Json.optional "sub_attribute" .string p.sub)

def Scalar.toJson : Scalar → Json
  | bool b => .bool b
  | integer n => .integer n.toInt
  | decimal x => .decimal x
  | string s => .string s
  | null => .null

namespace Filter

def toJson : Filter → Json
  | condition c =>
    .object ([("type", .string NodeKind.condition.name), ("path", c.path.toJson),
      ("operator", .string c.operator.name)] ++ Json.optional "value" Scalar.toJson c.value)
  | logical left connective right =>
    .object [("type", .string NodeKind.logical.name), ("left", left.toJson),
      ("operator", .string connective.name), ("right", right.toJson)]
  | valuePath path inner =>
    .object [("type", .string NodeKind.valuePath.name), ("path", path.toJson),
      ("filter", inner.toJson)]
  | negation inner =>
    .object [("type", .string NodeKind.negation.name), ("expression", inner.toJson)]

end Filter

end ScimQuery
