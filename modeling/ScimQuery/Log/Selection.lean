import ScimQuery.Log.Directive

/-!
# Selected events

Which events are written. Of the directives that are for an event the most specific one decides: the
one with the longest target, then one with a field, and of equal ones the last.
-/

namespace ScimQuery.Log

def words (directives : String) : List String :=
  (directives.splitOn ",").filter fun word => !word.isEmpty

def readable (directives : String) : List Directive :=
  (words directives).filterMap fun word => (Directive.parse word).toOption

/-- What is said of the words that are no directives. -/
def complaints (directives : String) : List String :=
  (words directives).filterMap fun word =>
    match Directive.parse word with
    | .ok _ => none
    | .error e => some ("ignoring `" ++ word ++ "`: " ++ e.message)

namespace Directive

def bareField (d : Directive) : Option String := d.field.map (·.1)

/-- There are no spans, so a directive for a span is for no event; and the values of fields are
asked of spans only. -/
def isFor (d : Directive) (e : Event) : Bool :=
  d.span.isNone && d.field.all (fun f => f.2.isNone && e.fieldNames.contains f.1)
    && d.target.all fun t => e.source.startsWith t

/-- How long the target is; any target is longer than none. -/
def targetLength (d : Directive) : Nat :=
  match d.target with
  | some t => t.utf8ByteSize + 1
  | none => 0

/-- Whether a directive is at most as specific as another one. -/
def atMost (d other : Directive) : Bool :=
  if d.targetLength ≠ other.targetLength then d.targetLength < other.targetLength
  else
    match d.bareField, other.bareField with
    | none, _ => true
    | some _, none => false
    | some a, some b => a ≤ b

end Directive

def decisive (ds : List Directive) (e : Event) : Option Directive :=
  (ds.filter (·.isFor e)).foldl (fun best d =>
    match best with
    | none => some d
    | some b => if b.atMost d then some d else some b) none

def fallback : Directive := { rank := Level.error.rank }

def isWritten (ds : List Directive) (e : Event) : Bool :=
  match decisive (if ds.isEmpty then [fallback] else ds) e with
  | some d => e.level.rank ≤ d.rank
  | none => false

/-- The directives that hold where none are given. -/
def defaultDirectives : String := "warn,scimsql=info"

def written (directives : String) (events : List Event) : List Event :=
  events.filter (isWritten (readable directives))

end ScimQuery.Log
