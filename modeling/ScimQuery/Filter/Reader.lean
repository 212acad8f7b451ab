import ScimQuery.CompileError
import ScimQuery.Json.Record

/-!
# Reading filters

A node says its kind in the member `type`, which may stand anywhere among its members. So the other
members are read as plain values first and decoded when the kind is known; inner nodes are decoded
from such values only.
-/

namespace ScimQuery

open Json

def Operator.names : List (String × Operator) := all.map fun o => (o.name, o)

def Connective.names : List (String × Connective) := all.map fun c => (c.name, c)

def Operator.read (depth : Nat) : Reader Operator := readName names depth

def Connective.read (depth : Nat) : Reader Connective := readName names depth

def NodeKind.names : List (String × NodeKind) := all.map fun k => (k.name, k)

/-! ### Attribute paths -/

namespace AttributePath

def title : String := "struct AttributePath"

/-- The fields of a path as far as they have been read. -/
structure Draft where
  schema : Option (Option String) := none
  name : Option String := none
  sub : Option (Option String) := none

def Draft.finish (d : Draft) : Except ReadError AttributePath := do
  return { schema := d.schema.join, name := ← required "name" d.name, sub := d.sub.join }

def readField (name : String) (d : Draft) : Reader Draft := fun text => do
  match name with
  | "uri" =>
    let (s, rest) ← field name d.schema (readOption readString) text
    return ({ d with schema := some s }, rest)
  | "name" =>
    let (s, rest) ← field name d.name readString text
    return ({ d with name := some s }, rest)
  | "sub_attribute" =>
    let (s, rest) ← field name d.sub (readOption readString) text
    return ({ d with sub := some s }, rest)
  | _ => otherField d text

def read (depth : Nat) : Reader AttributePath :=
  opened title depth
    (fun _ text => do
      let (schema, rest) ← itemField true (.ok none) (readOption readString) text
      let (name, rest) ← itemField false (tooShort title 3 1) readString rest
      let (sub, rest) ← itemField false (.ok none) (readOption readString) rest
      return ({ schema, name, sub }, ← closeList rest))
    (fun _ text => do
      let (d, rest) ← members readField {} text
      return (← d.finish, rest))

def decodeField (d : Draft) (m : String × Json) : Except ReadError Draft := do
  match m.1 with
  | "uri" =>
    fresh m.1 d.schema
    return { d with schema := some (← asOption asString m.2) }
  | "name" =>
    fresh m.1 d.name
    return { d with name := some (← asString m.2) }
  | "sub_attribute" =>
    fresh m.1 d.sub
    return { d with sub := some (← asOption asString m.2) }
  | _ => return d

def ofJson : Json → Except ReadError AttributePath
  | .object ms => do (← ms.foldlM decodeField {}).finish
  | .array js => do
    let (schema, js) ← nextField (.ok none) (asOption asString) js
    let (name, js) ← nextField (tooShort title 3 1) asString js
    let (sub, js) ← nextField (.ok none) (asOption asString) js
    noneLeft 3 js
    return { schema, name, sub }
  | j => mismatch (.wrongType j.found title)

end AttributePath

/-! ### Scalars -/

namespace Scalar

/-- A whole number of more than 64 bits with sign is a decimal. -/
def ofJson : Json → Except ReadError Scalar
  | .bool b => .ok (bool b)
  | .number (.integer n) =>
    if n ≤ Int64.maxValue.toInt then .ok (integer (Int64.ofInt n))
    else .ok (decimal (Decimal.whole n.toNat))
  | .number (.decimal x) => .ok (decimal x)
  | .string s => .ok (string s)
  | .null => .ok null
  | .array _ | .object _ => mismatch (.noAlternative "CompareValue")

def read (depth : Nat) : Reader Scalar := fun text => do
  let (j, rest) ← value depth text
  return (← ofJson j, rest)

end Scalar

/-! ### Nodes -/

namespace Filter

def title : String := "internally tagged enum Expression"

def tagName : String := "type"

/-- A value that has been read, and what it is as a node. -/
structure Held where
  json : Json
  node : Except ReadError Filter

/-- The node kind in a value that has been read; it may also be given by its number. -/
def decodeKind : Json → Except ReadError NodeKind
  | .string s => knownName NodeKind.names s
  | .number (.integer n) =>
    if n < 0 then mismatch (.wrongType (.number (.integer n)) "variant identifier")
    else
      match NodeKind.all[n.toNat]? with
      | some k => .ok k
      | none => mismatch (.wrongValue (Found.number (.integer n)).message
          "variant index 0 <= i < 4")
  | j => mismatch (.wrongType j.found "variant identifier")

/-- The fields of a node as far as they have been decoded. -/
structure Draft where
  path : Option AttributePath := none
  operator : Option Operator := none
  value : Option (Option Scalar) := none
  left : Option Filter := none
  connective : Option Connective := none
  right : Option Filter := none
  inner : Option Filter := none

def conditionField (d : Draft) (m : String × Held) : Except ReadError Draft := do
  match m.1 with
  | "path" =>
    fresh m.1 d.path
    return { d with path := some (← AttributePath.ofJson m.2.json) }
  | "operator" =>
    fresh m.1 d.operator
    return { d with operator := some (← asName Operator.names m.2.json) }
  | "value" =>
    fresh m.1 d.value
    return { d with value := some (← asOption Scalar.ofJson m.2.json) }
  | _ => return d

def logicalField (d : Draft) (m : String × Held) : Except ReadError Draft := do
  match m.1 with
  | "left" =>
    fresh m.1 d.left
    return { d with left := some (← m.2.node) }
  | "operator" =>
    fresh m.1 d.connective
    return { d with connective := some (← asName Connective.names m.2.json) }
  | "right" =>
    fresh m.1 d.right
    return { d with right := some (← m.2.node) }
  | _ => return d

def valuePathField (d : Draft) (m : String × Held) : Except ReadError Draft := do
  match m.1 with
  | "path" =>
    fresh m.1 d.path
    return { d with path := some (← AttributePath.ofJson m.2.json) }
  | "filter" =>
    fresh m.1 d.inner
    return { d with inner := some (← m.2.node) }
  | _ => return d

def negationField (d : Draft) (m : String × Held) : Except ReadError Draft := do
  match m.1 with
  | "expression" =>
    fresh m.1 d.inner
    return { d with inner := some (← m.2.node) }
  | _ => return d

/-- A node of a known kind from its members. -/
def ofMembers (kind : NodeKind) (ms : List (String × Held)) : Except ReadError Filter := do
  match kind with
  | .condition =>
    let d ← ms.foldlM conditionField {}
    return condition ⟨← required "path" d.path, ← required "operator" d.operator, d.value.join⟩
  | .logical =>
    let d ← ms.foldlM logicalField {}
    return logical (← required "left" d.left) (← required "operator" d.connective)
      (← required "right" d.right)
  | .valuePath =>
    let d ← ms.foldlM valuePathField {}
    return valuePath (← required "path" d.path) (← required "filter" d.inner)
  | .negation =>
    let d ← ms.foldlM negationField {}
    return negation (← required "expression" d.inner)

/-- How messages call the record of a node. -/
def recordTitle : NodeKind → String
  | .condition => "struct AttributeExpression"
  | .logical => "struct LogicalExpression"
  | .valuePath => "struct ValuePath"
  | .negation => "struct variant Expression::Not"

/-- A node of a known kind from the list of its fields. -/
def ofItems (kind : NodeKind) (hs : List Held) : Except ReadError Filter := do
  let title := recordTitle kind
  match kind with
  | .condition =>
    let (path, hs) ← nextField (tooShort title 3 0) (AttributePath.ofJson ·.json) hs
    let (operator, hs) ← nextField (tooShort title 3 1) (asName Operator.names ·.json) hs
    let (value, hs) ← nextField (.ok none) (asOption Scalar.ofJson ·.json) hs
    noneLeft 3 hs
    return condition ⟨path, operator, value⟩
  | .logical =>
    let (left, hs) ← nextField (tooShort title 3 0) (·.node) hs
    let (connective, hs) ← nextField (tooShort title 3 1) (asName Connective.names ·.json) hs
    let (right, hs) ← nextField (tooShort title 3 2) (·.node) hs
    noneLeft 3 hs
    return logical left connective right
  | .valuePath =>
    let (path, hs) ← nextField (tooShort title 2 0) (AttributePath.ofJson ·.json) hs
    let (inner, hs) ← nextField (tooShort title 2 1) (·.node) hs
    noneLeft 2 hs
    return valuePath path inner
  | .negation =>
    let (inner, hs) ← nextField (tooShort title 1 0) (·.node) hs
    noneLeft 1 hs
    return negation inner

/-- Parts the member that says the kind from the others. -/
def splitTag : Option NodeKind → List (String × Held) →
    Except ReadError (Option NodeKind × List (String × Held))
  | kind, [] => .ok (kind, [])
  | kind, m :: ms =>
    if m.1 = tagName then do
      fresh tagName kind
      splitTag (some (← decodeKind m.2.json)) ms
    else (splitTag kind ms).map fun (kind, ms) => (kind, m :: ms)

mutual

def ofJson : Json → Except ReadError Filter
  | .object ms => do
    let (kind, ms) ← splitTag none (holdMembers ms)
    ofMembers (← required tagName kind) ms
  | .array js =>
    match holdItems js with
    | [] => mismatch (.missingField tagName)
    | h :: hs => do ofItems (← decodeKind h.json) hs
  | j => mismatch (.wrongType j.found title)

def holdItems : List Json → List Held
  | [] => []
  | j :: js => ⟨j, ofJson j⟩ :: holdItems js

def holdMembers : List (String × Json) → List (String × Held)
  | [] => []
  | (name, j) :: ms => (name, ⟨j, ofJson j⟩) :: holdMembers ms

end

/-! ### The outermost node -/

/-- The kind and the other members of the outermost node as far as they have been read. -/
structure Opening where
  kind : Option NodeKind := none
  members : List (String × Json) := []

/-- The kind is checked as soon as it is read, before the members behind it. -/
def readMember (depth : Nat) (name : String) (o : Opening) : Reader Opening := fun text => do
  if name = tagName then
    let (kind, rest) ← field name o.kind (readWord NodeKind.names) text
    return ({ o with kind := some kind }, rest)
  else
    let (j, rest) ← value depth (← colon text)
    return ({ o with members := (name, j) :: o.members }, rest)

def read (depth : Nat) : Reader Filter :=
  opened title depth
    (fun depth text => do
      let (kind, rest) ← itemField true (mismatch (.missingField tagName))
        (readWord NodeKind.names) text
      let (js, rest) ← itemsFrom (value depth) rest false rest
      return (← ofItems kind (holdItems js), rest))
    (fun depth text => do
      let (o, rest) ← members (readMember depth) {} text
      let kind ← required tagName o.kind
      return (← ofMembers kind (holdMembers o.members.reverse), rest))

/-- The filter in a JSON text; null asks for no filter. -/
def parse (text : String) : Except ReadError (Option Filter) :=
  readAll (readOption (read depthLimit)) text

/-- The filter that a client sends. -/
def ofRequest (text : String) : Except CompileError (Option Filter) :=
  (parse text).mapError CompileError.ofRead

end Filter

end ScimQuery
