/-!
# Patterns

Regular expressions as trees. Of a pattern is kept what decides whether it can be used: how its
parts nest, its flags, the names of its groups and the characters that it is written with.
-/

namespace ScimQuery

namespace Pattern

inductive Flag where
  | ignoreCase | manyLines | anyNewline | swapGreed | unicode | carriageReturn | spaced
  deriving DecidableEq

/-- Some flags, each with what it is switched to. -/
abbrev Switches := List (Flag × Bool)

/-- What a flag is behind some switches. -/
def Switches.state (switches : Switches) (flag : Flag) (before : Bool) : Bool :=
  (switches.lookup flag).getD before

structure Literal where
  char : Char
  /-- Written as a byte, with two hexadecimal digits. -/
  isByte : Bool := false

/-- What has no parts of its own. -/
inductive Atom where
  | literal (l : Literal)
  | any
  /-- The beginning or the end of a line or of the text. -/
  | border
  /-- A place where words may begin or end, or may not. -/
  | wordEdge
  /-- Digits, blanks or word characters, or all but these. -/
  | shorthand (negated : Bool)
  /-- The characters with a property that has a name of one letter. -/
  | property (name : Char)

/-- What may stand in a set of characters. -/
inductive SetItem where
  | atom (a : Atom)
  | range (first last : Literal)
  /-- A set of ASCII characters with a name, or all but these. -/
  | named (negated : Bool)
  | set (negated : Bool) (body : SetItem)
  | union (items : List SetItem)
  /-- What two sets have in common, or what only one of them has. -/
  | combined (left right : SetItem)

end Pattern

open Pattern in
inductive Pattern where
  | empty
  | switch (switches : Switches)
  | atom (a : Atom)
  | set (negated : Bool) (body : SetItem)
  | repeated (p : Pattern)
  | group (name : Option String) (switches : Switches) (p : Pattern)
  | sequence (ps : List Pattern)
  | choice (ps : List Pattern)

namespace Pattern

/-! ### Depth -/

mutual

/-- How many sets and unions stand in each other. -/
def SetItem.depth : SetItem → Nat
  | .atom _ | .range .. | .named _ | .union [] => 0
  | .set _ body => body.depth + 1
  | .union (item :: items) => max item.depth (itemsDepth items) + 1
  | .combined left right => max left.depth right.depth + 1

def itemsDepth : List SetItem → Nat
  | [] => 0
  | item :: items => max item.depth (itemsDepth items)

end

mutual

/-- How many parts that have parts of their own stand in each other. -/
def depth : Pattern → Nat
  | empty | switch _ | atom _ => 0
  | set _ body => body.depth + 1
  | repeated p | group _ _ p => p.depth + 1
  | sequence ps | choice ps => partsDepth ps + 1

def partsDepth : List Pattern → Nat
  | [] => 0
  | p :: ps => max p.depth (partsDepth ps)

end

/-! ### Names -/

mutual

def names : Pattern → List String
  | empty | switch _ | atom _ | set .. => []
  | repeated p => p.names
  | group name _ p => name.toList ++ p.names
  | sequence ps | choice ps => partsNames ps

def partsNames : List Pattern → List String
  | [] => []
  | p :: ps => p.names ++ partsNames ps

end

/-! ### Leaves -/

mutual

/-- Whether characters are those of Unicode behind a pattern. A switch has no effect outside of its
group, but one in a branch of a choice has it in the branches behind. -/
def unicodeBehind (before : Bool) : Pattern → Bool
  | switch switches => switches.state .unicode before
  | sequence ps | choice ps => unicodeBehindParts before ps
  | _ => before

def unicodeBehindParts (before : Bool) : List Pattern → Bool
  | [] => before
  | p :: ps => unicodeBehindParts (p.unicodeBehind before) ps

end

mutual

/-- Whether a test holds of every part with no patterns inside. It is told whether the characters are
those of Unicode there. -/
def every (test : Bool → Pattern → Bool) (unicode : Bool) : Pattern → Bool
  | repeated p => p.every test unicode
  | group _ switches p => p.every test (switches.state .unicode unicode)
  | sequence ps | choice ps => everyPart test unicode ps
  | p => test unicode p

def everyPart (test : Bool → Pattern → Bool) (unicode : Bool) : List Pattern → Bool
  | [] => true
  | p :: ps => p.every test unicode && everyPart test (p.unicodeBehind unicode) ps

end

end Pattern

end ScimQuery
