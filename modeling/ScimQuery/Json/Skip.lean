import ScimQuery.Json.Reader

/-!
# Values that nobody asks for

A member with an unknown name is passed over. Passing over is coarser than reading: nesting is not
limited, numbers may be of any size and escapes need not pair up, but the text must be well formed.
-/

namespace ScimQuery.Json

def skipText : List Char → Except Malformed (List Char)
  | [] | ['\\'] => .error .endInText
  | '"' :: rest => .ok rest
  | '\\' :: 'u' :: a :: b :: c :: d :: rest =>
    if (hexUnit a b c d).isSome then skipText rest else .error .badEscape
  | '\\' :: 'u' :: rest => .error (badHex rest)
  | '\\' :: c :: rest => if (escapedBy c).isSome then skipText rest else .error .badEscape
  | c :: rest => if c.toNat < 0x20 then .error .control else skipText rest

/-- Passes over a number; where the text ends inside it, the number is wrong. -/
def skipNumber (text : List Char) : Except Malformed (List Char) :=
  match scanNumeral text with
  | .ok (_, rest) => .ok rest
  | .error .endInNumber => .error .badNumber
  | .error cause => .error cause

mutual

/-- Passes over a value. Every step takes a character or goes from a list to its next element, so
twice the length of the text bounds the number of steps. -/
def skipValue : Nat → List Char → Except Malformed (List Char)
  | 0, _ => .error .endInValue
  | bound + 1, text =>
    match skipSpace text with
    | [] => .error .endInValue
    | 'n' :: rest => scanWord "ull".toList rest
    | 't' :: rest => scanWord "rue".toList rest
    | 'f' :: rest => scanWord "alse".toList rest
    | '"' :: rest => skipText rest
    | '-' :: rest => skipNumber rest
    | '[' :: rest => skipItems bound true rest
    | '{' :: rest => skipMembers bound true rest
    | c :: rest => if c.isDigit then skipNumber (c :: rest) else .error .expectedValue

def skipItems : Nat → Bool → List Char → Except Malformed (List Char)
  | 0, _, _ => .error .endInList
  | bound + 1, first, text =>
    match skipSpace text with
    | [] => .error .endInList
    | ']' :: rest => .ok rest
    | c :: rest =>
      if first then (skipValue bound (c :: rest)).bind (skipItems bound false)
      else if c = ',' then (skipValue bound rest).bind (skipItems bound false)
      else .error .expectedListSeparator

def skipMembers : Nat → Bool → List Char → Except Malformed (List Char)
  | 0, _, _ => .error .endInObject
  | bound + 1, first, text =>
    match skipSpace text with
    | [] => .error .endInObject
    | '}' :: rest => .ok rest
    | c :: rest =>
      if first then skipMember bound (c :: rest)
      else if c = ',' then skipMember bound rest
      else .error .expectedObjectSeparator

def skipMember : Nat → List Char → Except Malformed (List Char)
  | 0, _ => .error .endInObject
  | bound + 1, text =>
    match skipSpace text with
    | [] => .error .endInObject
    | '"' :: rest => (skipText rest).bind fun rest =>
      match skipSpace rest with
      | [] => .error .endInObject
      | ':' :: rest => (skipValue bound rest).bind (skipMembers bound false)
      | _ => .error .expectedColon
    | _ => .error .keyNotText

end

def skip (text : List Char) : Except ReadError (List Char) :=
  lift (skipValue (3 * text.length + 3) text)

end ScimQuery.Json
