import ScimQuery.Files

/-!
# File trees

Files and folders in memory. A path is walked part by part, so every part but the last must be a
folder.
-/

namespace ScimQuery

/-- The place of a file or folder: the names on the way from the root. -/
abbrev Place := List String

structure FileTree where
  files : List (Place × ByteArray)
  /-- Folders that are there though nothing may be in them. -/
  folders : List Place
  /-- Where paths begin that do not begin at the root. -/
  working : Place

namespace FileTree

def isFolder (t : FileTree) (place : Place) : Bool :=
  place.isPrefixOf t.working || t.folders.any (place.isPrefixOf ·) ||
    t.files.any fun f => place.isPrefixOf f.1 && place.length < f.1.length

def file? (t : FileTree) (place : Place) : Option ByteArray := t.files.lookup place

/-- How many bytes a name and a path may have. -/
def maxName : Nat := 255

def maxPath : Nat := 4095

/-- Goes from a place to the next part of a path. Above the root is the root. -/
def enter (t : FileTree) (place : Place) (part : String) : Except FileProblem Place :=
  if (t.file? place).isSome then .error .notDirectory
  else if part = "" || part = "." then .ok place
  else if part = ".." then .ok place.dropLast
  else if maxName < part.utf8ByteSize then .error .nameTooLong
  else
    let next := place ++ [part]
    if (t.file? next).isSome || t.isFolder next then .ok next else .error .notFound

def find (t : FileTree) (path : String) : Except FileProblem Place :=
  if path.isEmpty then .error .notFound
  else if maxPath < path.utf8ByteSize then .error .nameTooLong
  else (path.splitOn "/").foldlM t.enter (if path.startsWith "/" then [] else t.working)

def read (t : FileTree) : Files := fun path => do
  match t.file? (← t.find path) with
  | some bytes => Files.decode bytes
  | none => throw .isDirectory

/-- Puts named files into the working folder; a name that ends with a slash is a folder. -/
def put (t : FileTree) (named : List (String × ByteArray)) : FileTree where
  files := t.files ++ named.filterMap fun (name, bytes) =>
    if name.endsWith "/" then none else some (t.working ++ name.splitOn "/", bytes)
  folders := t.folders ++ named.filterMap fun (name, _) =>
    if name.endsWith "/" then some (t.working ++ (name.splitOn "/").dropLast) else none
  working := t.working

end FileTree

end ScimQuery
