import ScimQuery.MappingTable
import ScimQuery.Page

/-!
# Resources

A kind of objects that clients may list: its mapping table and how its lists are ordered and paged
when a request does not say.
-/

namespace ScimQuery

structure Resource where
  table : MappingTable
  orderBy : Option Attribute := none
  direction : Direction := .asc
  count : Option UInt64 := none

/-- Why a list of a resource cannot be ordered. -/
inductive OrderError where
  | invalid (cause : InvalidAttribute)
  | refused (cause : CompileError)
  /-- No attribute is asked for, and none can be ordered by. -/
  | noneSortable

def OrderError.message : OrderError → String
  | invalid cause => cause.message
  | refused cause => cause.message
  | noneSortable => "No order_by configured and no sortable attribute mapped"

namespace Resource

/-- The attributes with their columns, ordered by the text of the attribute. -/
def listed (r : Resource) : List (Attribute × Column) :=
  r.table.entries.mergeSort fun a b => a.1.text ≤ b.1.text

def firstSortable? (r : Resource) : Option String :=
  (r.listed.find? fun e => e.2.sortable).map fun e => e.2.column

/-- The attribute asked for, else the resource's own. -/
def orderAttribute (r : Resource) (asked : Option String) : Except OrderError (Option Attribute) :=
  match asked with
  | some text => ((Attribute.parse text).map some).mapError .invalid
  | none => .ok r.orderBy

/-- The column to order by. Without an attribute it is the first sortable one. -/
def sortColumn (r : Resource) (asked : Option String) : Except OrderError String := do
  match ← r.orderAttribute asked with
  | some a => (MappingTable.sortColumn r.table a).mapError .refused
  | none =>
    match r.firstSortable? with
    | some column => return column
    | none => throw .noneSortable

def order (r : Resource) (asked : Option String) (direction : Option Direction) :
    Except OrderError SortOrder :=
  (r.sortColumn asked).map fun column => ⟨column, direction.getD r.direction⟩

end Resource

end ScimQuery
