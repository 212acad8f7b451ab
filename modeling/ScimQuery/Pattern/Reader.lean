import ScimQuery.Decimal.Natural
import ScimQuery.Pattern
import ScimQuery.Text.Letters

/-!
# Reading patterns

A pattern stands between braces, so it has no closing brace of its own, and nothing that takes one
can be read: counted repetitions, properties with long names and character codes in braces.
-/

namespace ScimQuery.Pattern

/-! ### Blanks -/

/-- Drops blanks, and comments from a `#` to the end of the line. -/
def dropBlanks (inComment : Bool) : List Char → List Char
  | [] => []
  | c :: rest =>
    if inComment then dropBlanks (c ≠ '\n') rest
    else if c = '#' then dropBlanks true rest
    else if Text.isBlank c then dropBlanks false rest
    else c :: rest

/-- Goes to the next character that counts. -/
def skip (spaced : Bool) (text : List Char) : List Char :=
  if spaced then dropBlanks false text else text

/-- The character that decides whether a minus stands for a range. A comment is looked into, and
where only blanks are left the first of them is it. -/
def ahead (spaced : Bool) (text : List Char) : Option Char :=
  if spaced then
    let sought :=
      match text.dropWhile Text.isBlank with
      | '#' :: rest => rest.dropWhile Text.isBlank
      | rest => rest
    sought.head? <|> text.head?
  else text.head?

/-! ### Escapes -/

/-- Reads so many hexadecimal digits behind those that give the number so far. -/
def readHexDigits (spaced : Bool) : Nat → Nat → List Char → Option (Nat × List Char)
  | 0, number, text => some (number, text)
  | n + 1, number, text =>
    match skip spaced text with
    | [] => none
    | c :: rest => (Decimal.hexValue c).bind fun d => readHexDigits spaced n (number * 16 + d) rest

def readCode (spaced : Bool) (digits : Nat) (text : List Char) : Option (Atom × List Char) :=
  match readHexDigits spaced digits 0 text with
  | none => none
  | some (code, rest) =>
    if code.isValidChar then some (.literal ⟨Char.ofNat code, digits = 2⟩, rest) else none

def readProperty (spaced : Bool) (text : List Char) : Option (Atom × List Char) :=
  match skip spaced text with
  | [] | '{' :: _ | '\\' :: _ => none
  | c :: rest => some (.property c, rest)

/-- The control character that a letter stands for. -/
def control? : Char → Option Char
  | 'a' => some '\x07'
  | 'f' => some '\x0c'
  | 'n' => some '\n'
  | 'r' => some '\r'
  | 't' => some '\t'
  | 'v' => some '\x0b'
  | _ => none

/-- Whether a character may have a backslash in front and still stand for itself. -/
def isEscapable (c : Char) : Bool := c.toNat < 0x80 && !c.isAlphanum && c ≠ '<' && c ≠ '>'

def readEscape (spaced : Bool) : List Char → Option (Atom × List Char)
  | [] => none
  | c :: rest =>
    match c with
    | 'x' => readCode spaced 2 rest
    | 'u' => readCode spaced 4 rest
    | 'U' => readCode spaced 8 rest
    | 'p' | 'P' => readProperty spaced rest
    | 'd' | 's' | 'w' => some (.shorthand false, rest)
    | 'D' | 'S' | 'W' => some (.shorthand true, rest)
    | 'A' | 'z' => some (.border, rest)
    | 'b' | 'B' | '<' | '>' => some (.wordEdge, rest)
    | _ =>
      if isEscapable c then some (.literal ⟨c, false⟩, rest)
      else (control? c).map fun control => (.literal ⟨control, false⟩, rest)

/-! ### Sets -/

/-- Reads a character or an escape in a set, where most signs stand for themselves. -/
def readSetAtom (spaced : Bool) : List Char → Option (Atom × List Char)
  | [] => none
  | '\\' :: rest => readEscape spaced rest
  | c :: rest => some (.literal ⟨c, false⟩, rest)

/-- What an atom is in a set, where places have no meaning. -/
def Atom.inSet? : Atom → Option SetItem
  | .any | .border | .wordEdge => none
  | a => some (.atom a)

def range? : Atom → Atom → Option SetItem
  | .literal first, .literal last =>
    if first.char ≤ last.char then some (.range first last) else none
  | _, _ => none

/-- Reads an atom or a range. A minus in front of a bracket or of another minus makes no range. -/
def readSetItem (spaced : Bool) (text : List Char) : Option (SetItem × List Char) := do
  let (a, rest) ← readSetAtom spaced text
  match skip spaced rest with
  | [] => none
  | '-' :: behind =>
    if ahead spaced behind = some ']' || ahead spaced behind = some '-' then
      return (← a.inSet?, '-' :: behind)
    else
      let (b, rest) ← readSetAtom spaced (skip spaced behind)
      return (← range? a b, rest)
  | rest => return (← a.inSet?, rest)

def setNames : List String :=
  ["alnum", "alpha", "ascii", "blank", "cntrl", "digit", "graph", "lower", "print", "punct",
   "space", "upper", "word", "xdigit"]

/-- Reads a set with a name, such as `[:alpha:]`, behind its opening bracket. -/
def readNamed (text : List Char) : Option (SetItem × List Char) :=
  match text with
  | ':' :: text =>
    let (negated, text) := match text with
      | '^' :: text => (true, text)
      | text => (false, text)
    match text.dropWhile (· ≠ ':') with
    | ':' :: ']' :: rest =>
      if setNames.contains (String.ofList (text.takeWhile (· ≠ ':'))) then
        some (.named negated, rest)
      else none
    | _ => none
  | _ => none

/-- Reads the sign that turns a set into its complement. -/
def readNegation (spaced : Bool) (text : List Char) : Bool × List Char :=
  match skip spaced text with
  | '^' :: rest => (true, rest)
  | rest => (false, rest)

/-- The union of some items, the last one in front. -/
def unite (items : List SetItem) : SetItem :=
  match items with
  | [item] => item
  | items => .union items.reverse

/-- Adds the last operand of a combination. -/
def combine (left : Option SetItem) (items : List SetItem) : SetItem :=
  match left with
  | none => unite items
  | some left => .combined left (unite items)

/-- Reads a set up to its closing bracket, given the sets that have been combined so far and the
items behind them, the last one in front. At the start a bracket and minuses stand for themselves.
Every step takes a character of the text, so its length bounds their number. -/
def readSet (spaced : Bool) :
    Nat → Bool → Option SetItem → List SetItem → List Char → Option (SetItem × List Char)
  | 0, _, _, _, _ => none
  | bound + 1, start, left, items, text =>
    match skip spaced text with
    | [] => none
    | c :: rest =>
      if start && (c = '-' || c = ']' && items.isEmpty) then
        readSet spaced bound (c = '-') left (.atom (.literal ⟨c, false⟩) :: items) rest
      else if c = ']' then some (combine left items, rest)
      else if c = '[' then
        match readNamed rest with
        | some (item, rest) => readSet spaced bound false left (item :: items) rest
        | none =>
          let (negated, rest) := readNegation spaced rest
          match readSet spaced bound true none [] rest with
          | none => none
          | some (body, rest) => readSet spaced bound false left (.set negated body :: items) rest
      else if (c = '&' || c = '-' || c = '~') && rest.head? = some c then
        readSet spaced bound false (some (combine left items)) [] (rest.drop 1)
      else
        match readSetItem spaced (c :: rest) with
        | none => none
        | some (item, rest) => readSet spaced bound false left (item :: items) rest

/-! ### Groups -/

/-- What an opening parenthesis begins. -/
inductive Opening where
  | switch (switches : Switches)
  | group (name : Option String) (switches : Switches)

def flag? : Char → Option Flag
  | 'i' => some .ignoreCase
  | 'm' => some .manyLines
  | 's' => some .anyNewline
  | 'U' => some .swapGreed
  | 'u' => some .unicode
  | 'R' => some .carriageReturn
  | 'x' => some .spaced
  | _ => none

/-- Reads flags, given those in front. Flags behind a minus are switched off; there is one minus at
most, and it is not the last sign. -/
def readSwitches (on : Bool) (switches : Switches) : List Char → Option (Opening × List Char)
  | [] => none
  | ':' :: rest => some (.group none switches, rest)
  | ')' :: rest => if switches.isEmpty then none else some (.switch switches, rest)
  | '-' :: rest =>
    if !on || rest.head? = some ':' || rest.head? = some ')' then none
    else readSwitches false switches rest
  | c :: rest =>
    match flag? c with
    | none => none
    | some flag =>
      if (switches.lookup flag).isSome then none
      else readSwitches on (switches ++ [(flag, on)]) rest

def isNameStart (c : Char) : Bool := c = '_' || Text.isLetter c

def isNameChar (c : Char) : Bool :=
  c = '_' || c = '.' || c = '[' || c = ']' || Text.isLetterOrDigit c

def isName : List Char → Bool
  | [] => false
  | c :: rest => isNameStart c && rest.all isNameChar

/-- Reads the name of a group up to its angle bracket. -/
def readName (text : List Char) : Option (Opening × List Char) :=
  let name := text.takeWhile (· ≠ '>')
  match text.dropWhile (· ≠ '>') with
  | '>' :: rest => if isName name then some (.group (String.ofList name) [], rest) else none
  | _ => none

/-- Reads what stands behind an opening parenthesis. -/
def readOpening (spaced : Bool) (text : List Char) : Option (Opening × List Char) :=
  match skip spaced text with
  | '?' :: 'P' :: '<' :: rest | '?' :: '<' :: rest => readName rest
  | '?' :: rest => readSwitches true [] rest
  | rest => some (.group none [], rest)

/-! ### Patterns -/

/-- Some parts one after the other, the last one in front. -/
def join (parts : List Pattern) : Pattern :=
  match parts with
  | [] => .empty
  | [part] => part
  | parts => .sequence parts.reverse

def choose (branches parts : List Pattern) : Pattern :=
  if branches.isEmpty then join parts else .choice (join parts :: branches).reverse

def repeatLast : List Pattern → Option (List Pattern)
  | [] | .switch _ :: _ => none
  | part :: parts => some (.repeated part :: parts)

def readAtom (spaced : Bool) : List Char → Option (Atom × List Char)
  | [] | '{' :: _ => none
  | '\\' :: rest => readEscape spaced rest
  | '.' :: rest => some (.any, rest)
  | '^' :: rest | '$' :: rest => some (.border, rest)
  | c :: rest => some (.literal ⟨c, false⟩, rest)

/-- Reads a pattern up to its end, which is a closing parenthesis inside a group, given the branches
and the parts of the last branch so far, both with the last one in front. The bound is as for
`readSet`. -/
def read (inGroup : Bool) :
    Nat → Bool → List Pattern → List Pattern → List Char → Option (Pattern × List Char)
  | 0, _, _, _, _ => none
  | bound + 1, spaced, branches, parts, text =>
    match skip spaced text with
    | [] => if inGroup then none else some (choose branches parts, [])
    | ')' :: rest => if inGroup then some (choose branches parts, rest) else none
    | '|' :: rest => read inGroup bound spaced (join parts :: branches) [] rest
    | '(' :: rest =>
      match readOpening spaced rest with
      | none => none
      | some (.switch switches, rest) =>
        read inGroup bound (switches.state .spaced spaced) branches (.switch switches :: parts) rest
      | some (.group name switches, rest) =>
        match read true bound (switches.state .spaced spaced) [] [] rest with
        | none => none
        | some (p, rest) => read inGroup bound spaced branches (.group name switches p :: parts) rest
    | '[' :: rest =>
      let (negated, rest) := readNegation spaced rest
      match readSet spaced (rest.length + 1) true none [] rest with
      | none => none
      | some (body, rest) => read inGroup bound spaced branches (.set negated body :: parts) rest
    | '?' :: rest | '*' :: rest | '+' :: rest =>
      match repeatLast parts with
      | none => none
      | some parts =>
        let rest := if rest.head? = some '?' then rest.drop 1 else rest
        read inGroup bound spaced branches parts rest
    | text =>
      match readAtom spaced text with
      | none => none
      | some (a, rest) => read inGroup bound spaced branches (.atom a :: parts) rest

def parse? (text : String) : Option Pattern :=
  (read false (text.length + 1) false [] [] text.toList).map (·.1)

end ScimQuery.Pattern
