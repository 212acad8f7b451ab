import ScimQuery.Predicate
import ScimQuery.Page

/-!
# Queries

The clauses of a compiled list request.
-/

namespace ScimQuery

structure Query where
  predicate : Predicate
  limit : String
  orderBy : String

namespace Query

def hasFilter (q : Query) : Bool := !q.predicate.text.isEmpty

def toJson (q : Query) : Json :=
  .object [("predicate", .string q.predicate.text),
    ("parameters", .array (q.predicate.parameters.map Parameter.toJson)),
    ("limit", .string q.limit), ("order_by", .string q.orderBy)]

/-- Compiles a filter to a query. Without a filter the predicate is empty. The request id only
marks the events of this compilation. -/
def compile (filter : Option Filter) (table : MappingTable) (order : SortOrder) (page : Page)
    (requestId : String) : Recorded CompileError Query := do
  match filter with
  | none =>
    Recorded.log (.noFilter requestId)
    return ⟨{}, page.sql, order.sql⟩
  | some filter =>
    Recorded.log (.compiling requestId filter.kind.name table.size)
    let predicate ← filter.compile table requestId none
    Recorded.log (.compiled requestId predicate.parameters.length)
    return ⟨predicate, page.sql, order.sql⟩

end Query

end ScimQuery
