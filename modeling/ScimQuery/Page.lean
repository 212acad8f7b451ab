import ScimQuery.CompileError
import ScimQuery.Json.Record

/-!
# Pages and orders

The window of rows that a list request asks for, and the column and direction to order them by.
-/

namespace ScimQuery

open Json

structure Page where
  startIndex : UInt64
  count : UInt64
  deriving DecidableEq

namespace Page

/-- The rows to skip: `startIndex` whole pages, or the largest number there is. -/
def offset (p : Page) : UInt64 := UInt64.ofNatClamp (p.startIndex.toNat * p.count.toNat)

theorem offset_toNat (p : Page) :
    p.offset.toNat = min (p.startIndex.toNat * p.count.toNat) (UInt64.size - 1) := by
  unfold offset
  by_cases small : p.startIndex.toNat * p.count.toNat < UInt64.size
  · rw [UInt64.toNat_ofNatClamp_of_lt small]
    omega
  · rw [UInt64.toNat_ofNatClamp_of_le (by omega)]
    omega

def sql (p : Page) : String :=
  "limit " ++ toString p.offset.toNat ++ ", " ++ toString p.count.toNat

def toJson (p : Page) : Json :=
  .object [("startIndex", .integer p.startIndex.toNat), ("count", .integer p.count.toNat)]

def title : String := "struct Page"

structure Draft where
  startIndex : Option UInt64 := none
  count : Option UInt64 := none

def readField (name : String) (d : Draft) : Reader Draft := fun text => do
  match name with
  | "startIndex" =>
    let (n, rest) ← field name d.startIndex readUInt64 text
    return ({ d with startIndex := some n }, rest)
  | "count" =>
    let (n, rest) ← field name d.count readUInt64 text
    return ({ d with count := some n }, rest)
  | _ => otherField d text

def read (depth : Nat) : Reader Page :=
  opened title depth
    (fun _ text => do
      let (startIndex, rest) ← itemField true (tooShort title 2 0) readUInt64 text
      let (count, rest) ← itemField false (tooShort title 2 1) readUInt64 rest
      return (⟨startIndex, count⟩, ← closeList rest))
    (fun _ text => do
      let (d, rest) ← members readField {} text
      return (⟨← required "startIndex" d.startIndex, ← required "count" d.count⟩, rest))

end Page

/-! ### Orders -/

inductive Direction where
  | asc | desc
  deriving DecidableEq

namespace Direction

def name : Direction → String
  | asc => "asc"
  | desc => "desc"

def all : List Direction := [asc, desc]

/-- Reads a direction; the case of ASCII letters does not count. -/
def parse (s : String) : Except CompileError Direction :=
  match s.map Char.toLower with
  | "asc" => .ok asc
  | "desc" => .ok desc
  | _ => .error (.invalidDirection s)

end Direction

structure SortOrder where
  column : String
  direction : Direction

namespace SortOrder

def parse (column direction : String) : Except CompileError SortOrder :=
  (Direction.parse direction).map fun d => ⟨column, d⟩

def sql (o : SortOrder) : String := "order by " ++ o.column ++ " " ++ o.direction.name

end SortOrder

end ScimQuery
