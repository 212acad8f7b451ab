import ScimQuery.Pattern.Reader

/-!
# Usable patterns

Which patterns can be matched. They match texts only, so where characters are bytes nothing may
stand that could match a part of a character; and the borders of Unicode words are not supported.
-/

namespace ScimQuery

inductive PatternError where
  | malformed
  | unicodeWordEdge

def PatternError.message : PatternError → String
  | malformed => "error building NFA"
  | unicodeWordEdge =>
    "unsupported regex feature for DFAs: cannot build DFAs for regexes with Unicode word boundaries; "
      ++ "switch to ASCII word boundaries, or heuristically enable Unicode word boundaries or use a "
      ++ "different regex engine"

namespace Pattern

/-- The properties that have a name of one letter, in either case. -/
def propertyNames : List Char := ['c', 'l', 'm', 'n', 'p', 's', 'z']

def Literal.isAscii (l : Literal) : Bool := l.char.toNat < 0x80

/-- Where characters are bytes, nothing may stand for the higher ones. In a set that holds of all
literals. -/
def Atom.isAllowed (unicode inSet : Bool) : Atom → Bool
  | .literal l => unicode || l.isAscii || !inSet && !l.isByte
  | .any => unicode
  | .border | .wordEdge => true
  | .shorthand negated => unicode || !negated
  | .property name => unicode && propertyNames.contains name.toLower

mutual

def SetItem.isAllowed (unicode : Bool) : SetItem → Bool
  | .atom a => a.isAllowed unicode true
  | .range first last => unicode || first.isAscii && last.isAscii
  | .named negated => unicode || !negated
  | .set negated body => (unicode || !negated) && body.isAllowed unicode
  | .union items => itemsAllowed unicode items
  | .combined left right => left.isAllowed unicode && right.isAllowed unicode

def itemsAllowed (unicode : Bool) : List SetItem → Bool
  | [] => true
  | item :: items => item.isAllowed unicode && itemsAllowed unicode items

end

def leafAllowed (unicode : Bool) : Pattern → Bool
  | atom a => a.isAllowed unicode false
  | set negated body => (unicode || !negated) && body.isAllowed unicode
  | _ => true

/-- Whether a leaf is no border of Unicode words. -/
def leafSupported (unicode : Bool) : Pattern → Bool
  | atom .wordEdge => !unicode
  | _ => true

def depthLimit : Nat := 250

def isWellFormed (p : Pattern) : Bool :=
  p.depth ≤ depthLimit && p.names.Nodup && p.every leafAllowed true

def check (text : String) : Except PatternError Unit :=
  match parse? text with
  | none => .error .malformed
  | some p =>
    if !p.isWellFormed then .error .malformed
    else if !p.every leafSupported true then .error .unicodeWordEdge
    else .ok ()

end Pattern

end ScimQuery
