import ScimQuery.Filter.Reader
import ScimQuery.Filter
import ScimQuery.Query

/-!
# List requests

What a client asks of a list: a filter and a page. What the request leaves out is no filter, the
first page and no rows.
-/

namespace ScimQuery

open Json

structure ListRequest where
  filter : Option Filter := none
  page : Page := ⟨0, 0⟩

namespace ListRequest

def toJson (r : ListRequest) : Json :=
  .object [("filter", (r.filter.map Filter.toJson).getD .null),
    ("startIndex", .integer r.page.startIndex.toNat), ("count", .integer r.page.count.toNat)]

def title : String := "struct ListRequest"

structure Draft where
  filter : Option (Option Filter) := none
  startIndex : Option UInt64 := none
  count : Option UInt64 := none

def Draft.finish (d : Draft) : ListRequest :=
  ⟨d.filter.join, d.startIndex.getD 0, d.count.getD 0⟩

def readField (depth : Nat) (name : String) (d : Draft) : Reader Draft := fun text => do
  match name with
  | "filter" =>
    let (f, rest) ← field name d.filter (readOption (Filter.read depth)) text
    return ({ d with filter := some f }, rest)
  | "startIndex" =>
    let (n, rest) ← field name d.startIndex readUInt64 text
    return ({ d with startIndex := some n }, rest)
  | "count" =>
    let (n, rest) ← field name d.count readUInt64 text
    return ({ d with count := some n }, rest)
  | _ => otherField d text

def read (depth : Nat) : Reader ListRequest :=
  opened title depth
    (fun depth text => do
      let (filter, rest) ← itemField true (.ok none) (readOption (Filter.read depth)) text
      let (startIndex, rest) ← itemField false (.ok 0) readUInt64 rest
      let (count, rest) ← itemField false (.ok 0) readUInt64 rest
      return (⟨filter, startIndex, count⟩, ← closeList rest))
    (fun depth text => do
      let (d, rest) ← members (readField depth) {} text
      return (d.finish, rest))

def parse (text : String) : Except ReadError ListRequest := readAll (read depthLimit) text

/-- Compiles a request. The direction is read before the filter is looked at. -/
def compile (r : ListRequest) (table : MappingTable) (column direction : String) :
    Recorded CompileError Query := do
  let order ← Recorded.silent (SortOrder.parse column direction)
  Query.compile r.filter table order r.page ""

end ListRequest

end ScimQuery
