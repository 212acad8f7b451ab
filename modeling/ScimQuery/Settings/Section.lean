import ScimQuery.Catalog
import ScimQuery.Column
import ScimQuery.Dictionary
import ScimQuery.Page

/-!
# Resource sections

What a settings file says about one resource. Nothing is checked yet: attributes are texts, and
columns may be called anything.
-/

namespace ScimQuery

open Json

def Direction.names : List (String × Direction) := all.map fun d => (d.name, d)

def Direction.read (depth : Nat) : Reader Direction := readName names depth

structure Section where
  /-- The column of each attribute, by the text of the attribute. -/
  mappings : Dictionary String Column := .empty
  orderBy : Option String := none
  direction : Option Direction := none
  count : Option UInt64 := none

namespace Section

def title : String := "struct ResourceFileConfig"

/-- The columns under their attributes; the last column given for a text counts. -/
def readMappings (depth : Nat) : Reader (Dictionary String Column) := fun text => do
  let (ms, rest) ← readMembers Column.read depth text
  return (.ofList ms, rest)

structure Draft where
  mappings : Option (Dictionary String Column) := none
  orderBy : Option (Option String) := none
  direction : Option (Option Direction) := none
  count : Option (Option UInt64) := none

def Draft.finish (d : Draft) : Section :=
  ⟨d.mappings.getD .empty, d.orderBy.join, d.direction.join, d.count.join⟩

def readField (depth : Nat) (name : String) (d : Draft) : Reader Draft := fun text => do
  match name with
  | "mappings" =>
    let (ms, rest) ← field name d.mappings (readMappings depth) text
    return ({ d with mappings := some ms }, rest)
  | "order_by" =>
    let (s, rest) ← field name d.orderBy (readOption readString) text
    return ({ d with orderBy := some s }, rest)
  | "order_direction" =>
    let (o, rest) ← field name d.direction (readOption (Direction.read depth)) text
    return ({ d with direction := some o }, rest)
  | "count" =>
    let (n, rest) ← field name d.count (readOption readUInt64) text
    return ({ d with count := some n }, rest)
  | _ => otherField d text

def read (depth : Nat) : Reader Section :=
  opened title depth
    (fun depth text => do
      let (mappings, rest) ← itemField true (.ok .empty) (readMappings depth) text
      let (orderBy, rest) ← itemField false (tooShort title 4 1) (readOption readString) rest
      let (direction, rest) ← itemField false (tooShort title 4 2)
        (readOption (Direction.read depth)) rest
      let (count, rest) ← itemField false (tooShort title 4 3) (readOption readUInt64) rest
      return (⟨mappings, orderBy, direction, count⟩, ← closeList rest))
    (fun depth text => do
      let (d, rest) ← members (readField depth) {} text
      return (d.finish, rest))

end Section

end ScimQuery
