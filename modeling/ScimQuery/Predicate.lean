import ScimQuery.MappingTable
import ScimQuery.Parameter
import ScimQuery.Log.Recorded

/-!
# Predicates

A filter as the text of a predicate with a placeholder for each value, and the parameters for the
placeholders from left to right. Every condition and every connective has parentheses of its own. A
connective stands behind what it joins on its left: a condition ends with it, a group is followed
by it.
-/

namespace ScimQuery

/-- A piece of predicate text with its parameters. -/
structure Predicate where
  text : String := ""
  parameters : List Parameter := []

namespace Predicate

/-- A condition on a column, ending with `tail`. -/
def ofCondition (column : Column) (operator : Operator) (parameter : Option Parameter)
    (tail : String) : Predicate :=
  match parameter with
  | some p => ⟨" (" ++ column.column ++ " " ++ operator.sql ++ " ?) " ++ tail, [p]⟩
  | none => ⟨" (" ++ column.column ++ " " ++ operator.sql ++ ") " ++ tail, []⟩

/-- What stands behind a condition that no connective follows. -/
def noConnective : String := " "

def followedBy (p : Predicate) (c : Connective) : Predicate :=
  { p with text := p.text ++ " " ++ c.sql ++ " " }

/-- Two pieces in one pair of parentheses. -/
def group (left right : Predicate) : Predicate :=
  ⟨" ( " ++ left.text ++ right.text ++ " ) ", left.parameters ++ right.parameters⟩

def event (p : Predicate) : Log.Event :=
  match p.parameters with
  | [] => .presence p.text
  | parameter :: _ => .comparison p.text parameter.display

end Predicate

/-- Compiles a condition within the scope of a value path, if any. -/
def Condition.compile (c : Condition) (table : MappingTable) (requestId : String)
    (scope : Option String) (tail : String) : Recorded CompileError Predicate := do
  match table.resolve c.path.toAttribute scope with
  | .error e =>
    Recorded.log (.invalidField requestId e.message)
    throw e
  | .ok column =>
    let parameter ← Recorded.silent (c.bind column)
    let p := Predicate.ofCondition column c.operator parameter tail
    Recorded.log p.event
    return p

/-- Compiles a filter within a scope. The scope of a value path holds for the filter inside it, and
no value path stands inside another. The first condition or node that is refused from left to right
ends the compilation. -/
def Filter.compile (table : MappingTable) (requestId : String) (scope : Option String) :
    Filter → Recorded CompileError Predicate
  | condition c => c.compile table requestId scope Predicate.noConnective
  | logical left connective right => do
    let l ← match left.condition? with
      | some c => c.compile table requestId scope connective.sql
      | none => (·.followedBy connective) <$> left.compile table requestId scope
    let r ← right.compile table requestId scope
    return l.group r
  | valuePath path inner =>
    match scope with
    | none => inner.compile table requestId (some path.toAttribute.text)
    | some _ => throw (.unsupported .valuePath)
  | negation _ => throw (.unsupported .negation)

end ScimQuery
