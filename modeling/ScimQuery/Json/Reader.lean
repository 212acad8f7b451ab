import ScimQuery.Json.Scan

/-!
# Reading JSON

`Json.value` reads any value off the front of a text. Lists and objects are read member by member,
so a reader that knows what it wants stops at the first thing that is wrong.
-/

namespace ScimQuery.Json

abbrev Reader (α : Type) := List Char → Except ReadError (α × List Char)

def malformed (cause : Malformed) : Except ReadError α := .error (.malformed cause)

def mismatch (cause : Mismatch) : Except ReadError α := .error (.mismatch cause)

def lift (r : Except Malformed α) : Except ReadError α := r.mapError .malformed

/-! ### Lists and objects -/

/-- Goes to the next element, which stands behind a comma unless it is the first. None at the end
of the list; the closing bracket is left. -/
def nextItem (first : Bool) (text : List Char) : Except ReadError (Option (List Char)) :=
  match skipSpace text with
  | [] => malformed .endInList
  | ']' :: _ => .ok none
  | c :: rest =>
    if first then .ok (some (c :: rest))
    else if c = ',' then
      match skipSpace rest with
      | [] => malformed .endInValue
      | ']' :: _ => malformed .trailingComma
      | rest => .ok (some rest)
    else malformed .expectedListSeparator

/-- Closes a list of which nothing more is wanted. -/
def closeList (text : List Char) : Except ReadError (List Char) :=
  match skipSpace text with
  | [] => malformed .endInList
  | ']' :: rest => .ok rest
  | ',' :: rest =>
    match skipSpace rest with
    | ']' :: _ => malformed .trailingComma
    | _ => malformed .trailingCharacters
  | _ => malformed .trailingCharacters

/-- Reads the name of the next member. None at the end of the object, which is then closed. -/
def nextName (first : Bool) (text : List Char) : Except ReadError (Option String × List Char) :=
  match skipSpace text with
  | [] => malformed .endInObject
  | '}' :: rest => .ok (none, rest)
  | c :: rest =>
    if first then
      if c = '"' then do
        let (name, rest) ← lift (scanString rest)
        return (some name, rest)
      else malformed .keyNotText
    else if c = ',' then
      match skipSpace rest with
      | [] => malformed .endInValue
      | '"' :: rest => do
        let (name, rest) ← lift (scanString rest)
        return (some name, rest)
      | '}' :: _ => malformed .trailingComma
      | _ => malformed .keyNotText
    else malformed .expectedObjectSeparator

def colon (text : List Char) : Except ReadError (List Char) :=
  match skipSpace text with
  | [] => malformed .endInObject
  | ':' :: rest => .ok rest
  | _ => malformed .expectedColon

/-- The elements from here to the closing bracket. The first argument only bounds the number of
steps: every step takes a character of the text. -/
def itemsFrom (item : Reader α) : List Char → Bool → Reader (List α)
  | [], _, _ => malformed .endInList
  | _ :: bound, first, text => do
    match ← nextItem first text with
    | none =>
      let rest ← closeList text
      return ([], rest)
    | some text =>
      let (a, rest) ← item text
      let (as, rest) ← itemsFrom item bound false rest
      return (a :: as, rest)

/-- The elements of a list behind its opening bracket. -/
def items (item : Reader α) : Reader (List α) := fun text => itemsFrom item text true text

/-- Takes in the members from here to the closing bracket, bounded as for `itemsFrom`. -/
def membersFrom (member : String → σ → Reader σ) : List Char → Bool → σ → Reader σ
  | [], _, _, _ => malformed .endInObject
  | _ :: bound, first, state, text => do
    match ← nextName first text with
    | (none, rest) => return (state, rest)
    | (some name, rest) =>
      let (state, rest) ← member name state rest
      membersFrom member bound false state rest

/-- Takes in the members of an object behind its opening bracket. A member is read from its colon
on, with its name known. -/
def members (member : String → σ → Reader σ) (state : σ) : Reader σ := fun text =>
  membersFrom member text true state text

/-! ### Values -/

/-- A value that is neither a list nor an object. -/
def scalar : Reader Json := fun text =>
  match skipSpace text with
  | [] => malformed .endInValue
  | 'n' :: rest => do
    let rest ← lift (scanWord "ull".toList rest)
    return (.null, rest)
  | 't' :: rest => do
    let rest ← lift (scanWord "rue".toList rest)
    return (.bool true, rest)
  | 'f' :: rest => do
    let rest ← lift (scanWord "alse".toList rest)
    return (.bool false, rest)
  | '"' :: rest => do
    let (s, rest) ← lift (scanString rest)
    return (.string s, rest)
  | '-' :: rest => do
    let (n, rest) ← lift (scanNumber true rest)
    return (.number n, rest)
  | c :: rest =>
    if c.isDigit then do
      let (n, rest) ← lift (scanNumber false (c :: rest))
      return (.number n, rest)
    else malformed .expectedValue

/-- Any value with at most so many lists and objects open at a time. -/
def value : Nat → Reader Json
  | 0 => fun text =>
    match skipSpace text with
    | '[' :: _ | '{' :: _ => malformed .tooDeep
    | text => scalar text
  | depth + 1 => fun text =>
    match skipSpace text with
    | '[' :: rest => do
      let (js, rest) ← items (value depth) rest
      return (.array js, rest)
    | '{' :: rest => do
      let (ms, rest) ← members (fun name ms text => do
        let (j, rest) ← value depth (← colon text)
        return ((name, j) :: ms, rest)) [] rest
      return (.object ms.reverse, rest)
    | text => scalar text

/-- How many lists and objects may be open at a time. -/
def depthLimit : Nat := 127

/-- Reads a whole text: behind the value only blanks may follow. -/
def readAll (read : Reader α) (text : String) : Except ReadError α := do
  let (a, rest) ← read text.toList
  if (skipSpace rest).isEmpty then return a else malformed .trailingCharacters

def parse (text : String) : Except ReadError Json := readAll (value depthLimit) text

/-! ### Expected values -/

/-- A value of another type than expected. Lists and objects are not looked into. -/
def unexpected (expected : String) : Reader α := fun text =>
  match skipSpace text with
  | '[' :: _ => mismatch (.wrongType .array expected)
  | '{' :: _ => mismatch (.wrongType .object expected)
  | text => do
    let (j, _) ← scalar text
    mismatch (.wrongType j.found expected)

/-- Takes in the value of one shape, given what to do with a list and with an object. -/
def opened (expected : String) (depth : Nat) (onList onObject : Nat → Reader α) : Reader α :=
  fun text =>
    match skipSpace text, depth with
    | '[' :: _, 0 | '{' :: _, 0 => malformed .tooDeep
    | '[' :: rest, depth + 1 => onList depth rest
    | '{' :: rest, depth + 1 => onObject depth rest
    | text, _ => unexpected expected text

def readString : Reader String := fun text =>
  match skipSpace text with
  | '"' :: rest => lift (scanString rest)
  | text => unexpected "a string" text

def readBool : Reader Bool := fun text =>
  match skipSpace text with
  | 't' :: rest => do
    let rest ← lift (scanWord "rue".toList rest)
    return (true, rest)
  | 'f' :: rest => do
    let rest ← lift (scanWord "alse".toList rest)
    return (false, rest)
  | text => unexpected "a boolean" text

def readUnit : Reader Unit := fun text =>
  match skipSpace text with
  | 'n' :: rest => do
    let rest ← lift (scanWord "ull".toList rest)
    return ((), rest)
  | text => unexpected "unit" text

def readUInt64 : Reader UInt64 := fun text => do
  match skipSpace text with
  | '[' :: _ | '{' :: _ => unexpected "u64" text
  | text =>
    let (j, rest) ← scalar text
    match j with
    | .number (.integer n) =>
      if 0 ≤ n then return (n.toNat.toUInt64, rest)
      else mismatch (.wrongValue (Found.number (.integer n)).message "u64")
    | j => mismatch (.wrongType j.found "u64")

def readOption (read : Reader α) : Reader (Option α) := fun text =>
  match skipSpace text with
  | 'n' :: rest => do
    let rest ← lift (scanWord "ull".toList rest)
    return (none, rest)
  | text => do
    let (a, rest) ← read text
    return (some a, rest)

def knownName (names : List (String × α)) (name : String) : Except ReadError α :=
  match names.lookup name with
  | some a => .ok a
  | none => mismatch (.unknownName name (names.map (·.1)))

def readWord (names : List (String × α)) : Reader α := fun text =>
  match skipSpace text with
  | '"' :: rest => do
    let (name, rest) ← lift (scanString rest)
    return (← knownName names name, rest)
  | text => unexpected "variant identifier" text

/-- One of some names. It may also be written as an object whose one member has the name and
null. -/
def readName (names : List (String × α)) (depth : Nat) : Reader α := fun text =>
  match skipSpace text, depth with
  | [], _ => malformed .endInValue
  | '"' :: rest, _ => readWord names ('"' :: rest)
  | '{' :: _, 0 => malformed .tooDeep
  | '{' :: rest, _ + 1 => do
    match ← nextName true rest with
    | (none, _) => malformed .expectedValue
    | (some name, rest) =>
      let a ← knownName names name
      let (_, rest) ← readUnit (← colon rest)
      match skipSpace rest with
      | [] => malformed .endInObject
      | '}' :: rest => return (a, rest)
      | _ => malformed .expectedValue
  | _, _ => malformed .expectedValue

end ScimQuery.Json
