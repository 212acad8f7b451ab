import ScimQuery.Decimal.Natural
import ScimQuery.Log.Event
import ScimQuery.Pattern.Usable

/-!
# Log directives

A directive such as `target[span{field}]=level` says up to which level some events are
written. Each part may be missing: without a target it is for events of all sources, without a span
for events in and outside of spans, and without a level for all levels.
-/

namespace ScimQuery.Log

structure Directive where
  /-- The beginning of the source of an event. -/
  target : Option String := none
  span : Option String := none
  /-- A field that the event has, and the value asked of it. -/
  field : Option (String × Option String) := none
  /-- The rank up to which events are written. -/
  rank : Nat := Level.trace.rank

inductive DirectiveError where
  | malformed
  | unknownLevel
  | badPattern (e : PatternError)

def DirectiveError.message : DirectiveError → String
  | malformed => "invalid filter directive"
  | unknownLevel =>
    "error parsing level filter: expected one of \"off\", \"error\", \"warn\", \"info\", \"debug\", "
      ++ "\"trace\", or a number 0-5"
  | badPattern e => "invalid field filter: " ++ e.message

/-- The rank up to which a word lets events through. The word is a name or a number. -/
def rankOf (word : String) : Option Nat :=
  match Decimal.uint64? word with
  | some n => if n ≤ 5 then some n.toNat else none
  | none =>
    [("off", 0), ("error", 1), ("warn", 2), ("info", 3), ("debug", 4), ("trace", 5)].lookup
      (word.map Char.toLower)

namespace Directive

/-- The characters of a word from a place on. Places are counted in bytes. -/
def behind : Nat → List Char → List Char
  | _, [] => []
  | place, c :: word => if place = 0 then c :: word else behind (place - c.utf8Size) word

def upTo : Nat → List Char → List Char
  | _, [] => []
  | place, c :: word => if place = 0 then [] else c :: upTo (place - c.utf8Size) word

def cut (word : List Char) (first last : Nat) : String :=
  String.ofList (upTo (last - first) (behind first word))

/-- The first place from `first` on with a character of some kind. -/
def place? (word : List Char) (first : Nat) (kind : Char → Bool) : Option Nat :=
  let rest := behind first word
  if rest.any kind then
    some (first + (String.ofList (rest.takeWhile fun c => !kind c)).utf8ByteSize)
  else none

/-- Whether a target may begin with this character. -/
def beginsTarget (c : Char) : Bool := c = '-' || c = ':' || c = '_' || Text.isLetterOrDigit c

/-- Reads a field, or a field and its value. A value is a number or a pattern. -/
def parseField (text : String) : Except DirectiveError (String × Option String) :=
  match text.splitOn "=" with
  | name :: value :: _ => do
    if !Decimal.isNumeral value then (Pattern.check value).mapError .badPattern
    return (name, some value)
  | _ => .ok (text, none)

/-- Reads the level at the end of a word. No level at all is the highest. -/
def readLevel (word : List Char) (first : Nat) (d : Directive) : Except DirectiveError Directive :=
  let level := behind first word
  if level.isEmpty then .ok d
  else
    match rankOf (String.ofList level) with
    | some rank => .ok { d with rank }
    | none => .error .unknownLevel

/-- Reads what stands behind the brackets. The places are those of the word without blanks around
it, and the parts are cut out of the word with them. -/
def readBehind (word trimmed : List Char) (first : Nat) (d : Directive) :
    Except DirectiveError Directive :=
  match behind first trimmed with
  | [] => .ok d
  | '=' :: _ => readLevel word (first + 1) d
  | _ => .error .malformed

/-- Reads a field up to the brace and the bracket behind it. -/
def readField (word trimmed : List Char) (first : Nat) (d : Directive) :
    Except DirectiveError Directive :=
  match place? trimmed first (· = '}') with
  | none => .error .malformed
  | some last =>
    let text := cut word first last
    if text.isEmpty then .error .malformed
    else do
      let field ← parseField text
      if (behind (last + 1) trimmed).head? ≠ some ']' then .error .malformed
      else readBehind word trimmed (last + 2) { d with field := some field }

/-- Reads a span and a field behind an opening bracket. -/
def readSpan (word trimmed : List Char) (first : Nat) (d : Directive) :
    Except DirectiveError Directive :=
  match place? trimmed first fun c => c = ']' || c = '{' with
  | none => .error .malformed
  | some last =>
    let name := cut word first last
    if (behind last trimmed).head? = some ']' then
      readBehind word trimmed (last + 1) { d with span := some name }
    else
      readField word trimmed (last + 1) { d with span := if name.isEmpty then none else some name }

/-- A word that is no level is a target. -/
def levelOrTarget (word : String) : Directive :=
  match rankOf word with
  | some rank => { rank }
  | none => { target := some word }

def parse (text : String) : Except DirectiveError Directive :=
  let word := text.toList
  let trimmed := Text.trim word
  match trimmed with
  | [] => .error .malformed
  | '[' :: _ => readSpan word trimmed 1 {}
  | c :: _ =>
    if beginsTarget c then
      match place? trimmed 0 fun c => c = '=' || c = '[' with
      | none => .ok (levelOrTarget text)
      | some last =>
        let d : Directive := { target := some (cut word 0 last) }
        if (behind last trimmed).head? = some '=' then readLevel word (last + 1) d
        else readSpan word trimmed (last + 1) d
    else .error .malformed

end Directive

end ScimQuery.Log
