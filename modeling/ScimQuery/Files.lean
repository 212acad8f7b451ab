/-!
# Files

What there is to read under a path, and why there may be nothing to read.
-/

namespace ScimQuery

inductive FileProblem where
  | notFound
  | notDirectory
  | isDirectory
  | nameTooLong
  | notUtf8
  | other (text : String)

def FileProblem.message : FileProblem → String
  | notFound => "No such file or directory (os error 2)"
  | notDirectory => "Not a directory (os error 20)"
  | isDirectory => "Is a directory (os error 21)"
  | nameTooLong => "File name too long (os error 36)"
  | notUtf8 => "stream did not contain valid UTF-8"
  | other text => text

/-- The text under each path. -/
abbrev Files := String → Except FileProblem String

namespace Files

/-- The texts under some paths; there is nothing under any other path. -/
def ofList (found : List (String × Except FileProblem String)) : Files := fun path =>
  (found.lookup path).getD (.error .notFound)

/-- Whether there is something under a path, readable or not. -/
def has (files : Files) (path : String) : Bool :=
  match files path with
  | .error .notFound | .error .notDirectory | .error .nameTooLong => false
  | _ => true

def decode (bytes : ByteArray) : Except FileProblem String :=
  match String.fromUTF8? bytes with
  | some text => .ok text
  | none => .error .notUtf8

def below (folder path : String) : String :=
  if folder = "" || folder.endsWith "/" then folder ++ path else folder ++ "/" ++ path

/-- Drops what does not count at the front of the parts of a path: nothing, or a single dot. -/
def dropHere : List String → List String
  | part :: parts => if part = "" || part = "." then dropHere parts else part :: parts
  | [] => []

/-- Puts the home folder in the place of a leading `~`. -/
def expand (home : Option String) (path : String) : String :=
  match home, path.splitOn "/" with
  | some home, "~" :: parts =>
    below home ("/".intercalate (dropHere (dropHere parts).reverse).reverse)
  | _, _ => path

end Files

end ScimQuery
