import ScimQuery.Json.Skip

/-!
# Records

A record is written as an object, whose members may come in any order, or as the list of its
fields. Reading an object fills one slot for each field; a slot is filled at most once, and members
with other names are passed over.
-/

namespace ScimQuery.Json

/-- A field that is named again is refused before its value is read. -/
def fresh (name : String) (slot : Option α) : Except ReadError Unit :=
  if slot.isSome then mismatch (.repeatedField name) else .ok ()

/-- The content of a slot that must have been filled. -/
def required (name : String) (slot : Option α) : Except ReadError α :=
  match slot with
  | some a => .ok a
  | none => mismatch (.missingField name)

/-- Reads the value of a field from its colon on. -/
def field (name : String) (slot : Option α) (read : Reader α) : Reader α := fun text => do
  fresh name slot
  read (← colon text)

/-- Passes over a member from its colon on. -/
def otherField (state : σ) : Reader σ := fun text => do
  let rest ← skip (← colon text)
  return (state, rest)

/-- Reads the next field of a record written as a list; `absent` says what a shorter list means. -/
def itemField (first : Bool) (absent : Except ReadError α) (read : Reader α) : Reader α :=
  fun text => do
    match ← nextItem first text with
    | some text => read text
    | none => return (← absent, text)

/-- A record of `size` fields written as a list that ends before field number `n`. -/
def tooShort (title : String) (size n : Nat) : Except ReadError α :=
  mismatch (.wrongLength n (title ++ " with " ++ toString size
    ++ (if size = 1 then " element" else " elements")))

/-- The members of an object that holds values of one kind, in the order of the text. -/
def readMembers (read : Nat → Reader α) (depth : Nat) : Reader (List (String × α)) := fun text =>
  match skipSpace text, depth with
  | '{' :: _, 0 => malformed .tooDeep
  | '{' :: rest, depth + 1 => do
    let (ms, rest) ← members (fun name ms text => do
      let (a, rest) ← read depth (← colon text)
      return ((name, a) :: ms, rest)) [] rest
    return (ms.reverse, rest)
  | text, _ => unexpected "a map" text

/-! ### Values read before -/

def nextField (absent : Except ReadError α) (decode : β → Except ReadError α) (js : List β) :
    Except ReadError (α × List β) :=
  match js with
  | [] => absent.map fun a => (a, [])
  | j :: js => (decode j).map fun a => (a, js)

/-- A list with more values than the record has fields is refused. -/
def noneLeft (size : Nat) (left : List β) : Except ReadError Unit :=
  if left.isEmpty then .ok ()
  else mismatch (.wrongLength (size + left.length) (toString size
    ++ (if size = 1 then " element" else " elements") ++ " in sequence"))

def asString : Json → Except ReadError String
  | string s => .ok s
  | j => mismatch (.wrongType j.found "a string")

def asOption (decode : Json → Except ReadError α) : Json → Except ReadError (Option α)
  | null => .ok none
  | j => (decode j).map some

def asUnit : Json → Except ReadError Unit
  | null | object [] => .ok ()
  | j => mismatch (.wrongType j.found "unit")

/-- One of some names, or an object whose one member has the name and nothing else. -/
def asName (names : List (String × α)) : Json → Except ReadError α
  | string s => knownName names s
  | object [(s, j)] => do
    let a ← knownName names s
    asUnit j
    return a
  | object _ => mismatch (.wrongValue Found.object.message "map with a single key")
  | j => mismatch (.wrongType j.found "string or map")

end ScimQuery.Json
