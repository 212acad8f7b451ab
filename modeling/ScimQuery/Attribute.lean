import ScimQuery.Text.Letters

/-!
# Attributes

What a filter speaks of: an attribute, or a sub-attribute of a complex one, such as
`name.givenName`. A path may also carry the URI of the schema that the attribute belongs to.
-/

namespace ScimQuery

structure Attribute where
  name : String
  sub : Option String := none
  deriving DecidableEq

structure AttributePath extends Attribute where
  schema : Option String := none
  deriving DecidableEq

/-- `name` or `name.sub`. -/
def Attribute.text (a : Attribute) : String :=
  match a.sub with
  | some sub => a.name ++ "." ++ sub
  | none => a.name

/-- The attribute behind the schema URI and a colon, if there is one. -/
def AttributePath.text (p : AttributePath) : String :=
  match p.schema with
  | some schema => schema ++ ":" ++ p.toAttribute.text
  | none => p.toAttribute.text

/-- A text that names no attribute, without the blanks around it. -/
structure InvalidAttribute where
  text : String

def InvalidAttribute.message (e : InvalidAttribute) : String :=
  "Invalid attribute path '" ++ e.text ++ "'. Use 'name' or 'name.sub'"

/-- Reads `name` or `name.sub`; blanks around it do not count. The name ends at the first dot, and
neither part may be empty or hold another dot. -/
def Attribute.parse (s : String) : Except InvalidAttribute Attribute :=
  let text := Text.trim s.toList
  let name := text.takeWhile (· ≠ '.')
  let invalid := ⟨String.ofList text⟩
  match text.dropWhile (· ≠ '.') with
  | [] => if name.isEmpty then .error invalid else .ok { name := String.ofList name }
  | _ :: sub =>
    if name.isEmpty || sub.isEmpty || sub.contains '.' then .error invalid
    else .ok { name := String.ofList name, sub := some (String.ofList sub) }

end ScimQuery
