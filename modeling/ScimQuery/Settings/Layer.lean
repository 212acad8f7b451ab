import ScimQuery.Log.Event
import ScimQuery.Settings.Section

/-!
# Settings layers

The settings in one file. A later layer takes precedence over an earlier one: its default count,
and its sections as a whole. What the command line says takes precedence over all of them.
-/

namespace ScimQuery

open Json

structure Layer where
  defaultCount : Option UInt64 := none
  sections : Catalog Section := .empty
  /-- The names of members that mean nothing, in the order of the file. -/
  unknown : List String := []

namespace Layer

def title : String := "struct FileConfig"

/-- The sections by their resources; the last section given for a resource counts. -/
def readSections (depth : Nat) : Reader (Catalog Section) := fun text => do
  let (ms, rest) ← readMembers Section.read depth text
  return (.ofList ms, rest)

/-- The members of a settings file as far as they have been read. -/
structure Draft where
  defaultCount : Option (Option UInt64) := none
  sections : Option (Catalog Section) := none
  unknown : List String := []

def Draft.finish (d : Draft) : Layer :=
  ⟨d.defaultCount.join, d.sections.getD .empty, d.unknown⟩

/-- Notes a name once. -/
def note (names : List String) (name : String) : List String :=
  if name ∈ names then names else names ++ [name]

def readMember (depth : Nat) (name : String) (d : Draft) : Reader Draft := fun text => do
  match name with
  | "default_count" =>
    let (n, rest) ← field name d.defaultCount (readOption readUInt64) text
    return ({ d with defaultCount := some n }, rest)
  | "resources" =>
    let (ss, rest) ← field name d.sections (readSections depth) text
    return ({ d with sections := some ss }, rest)
  | _ =>
    let (_, rest) ← value depth (← colon text)
    return ({ d with unknown := note d.unknown name }, rest)

/-- A settings file holds an object, never a list of fields. -/
def read (depth : Nat) : Reader Layer := fun text =>
  match skipSpace text, depth with
  | '{' :: _, 0 => malformed .tooDeep
  | '{' :: rest, depth + 1 => do
    let (d, rest) ← members (readMember depth) {} rest
    return (d.finish, rest)
  | text, _ => unexpected title text

def parse (text : String) : Except ReadError Layer := readAll (read depthLimit) text

def override (base layer : Layer) : Layer where
  defaultCount := layer.defaultCount.or base.defaultCount
  sections := base.sections.override layer.sections
  unknown := base.unknown

/-- What the log says when a layer is laid over others. -/
def events (layer : Layer) : List Log.Event :=
  (layer.defaultCount.map .mergingDefaultCount).toList
    ++ layer.sections.names.map .mergingResource

/-- What the log says of names that mean nothing. -/
def warnings (layer : Layer) : List Log.Event :=
  if layer.unknown.isEmpty then [] else [.unknownFields layer.unknown]

end Layer

/-- What the command line says about settings. -/
structure Overrides where
  /-- The file to read in the place of the one in the working folder. -/
  config : Option String := none
  defaultCount : Option UInt64 := none

end ScimQuery
