/-
# Files and paths

A tree of files below a working directory, and what a path leads to.  A path is
walked name by name; each name but the last must lead to a directory.  Above the
working directory there are directories, of which nothing else is known.

* `OpenFile` : a file that is read from;
* `Entry` : a file or a directory, where `Entry.file` is a file by its content;
* `FileTree.lookup` : what a path leads to, or why it leads nowhere.
-/
import Interleave.Stream.Reader

namespace Interleave

/-! ## What a path can lead to -/

/-- A file that is open. -/
structure OpenFile where
  /-- How many bytes it is said to have. -/
  size : Nat
  /-- What it delivers when it is read, failures included. -/
  reader : Reader
  deriving DecidableEq, Repr

/-- A file that delivers this content without a failure. -/
def OpenFile.ofBytes (content : Bytes) : OpenFile := ⟨content.length, .ofBytes content⟩

/-- What a path can lead to. -/
inductive Entry where
  /-- A file that can be opened. -/
  | stream (file : OpenFile)
  | directory
  /-- A file that is there and cannot be opened. -/
  | unreadable (cause : IoError)
  deriving DecidableEq, Repr

/-- A file that can be opened and delivers this content without a failure. -/
def Entry.file (content : Bytes) : Entry := .stream (.ofBytes content)

/-! ## Trees -/

/-- The files and directories below the working directory, by the names that lead to
them.  A directory that holds an entry is there without an entry of its own. -/
structure FileTree where
  entries : List (List String × Entry)

namespace FileTree

/-- The names of a path. -/
def names (path : String) : List String := path.splitOn "/"

/-- A tree with a file or directory for each path. -/
def ofPaths (paths : List (String × Entry)) : FileTree :=
  ⟨paths.map fun (path, entry) =>
    ((names path).filter fun name => name != "" && name != ".", entry)⟩

/-- The entry that names lead to. -/
def find? (tree : FileTree) (names : List String) : Option Entry :=
  match tree.entries.find? fun (place, _) => place == names with
  | some (_, entry) => some entry
  | none =>
      if names = [] ∨ tree.entries.any (fun (place, _) => names.isPrefixOf place) then
        some .directory
      else
        none

/-! ## Walking a path -/

/-- Where a walk stands. -/
inductive Place where
  /-- At these names below the working directory. -/
  | below (names : List String)
  /-- At a directory above it. -/
  | above
  deriving DecidableEq, Repr

/-- How many bytes a name may have. -/
def nameLimit : Nat := 255

/-- How many bytes a path may have. -/
def pathLimit : Nat := 4095

/-- The directory that holds a place. -/
def Place.parent : Place → Place
  | .below [] => .above
  | .below names => .below names.dropLast
  | .above => .above

/-- One step of a walk from a directory. -/
def step (tree : FileTree) (place : Place) (name : String) : Except IoError (Place × Entry) :=
  if name = "" ∨ name = "." then .ok (place, .directory)
  else if name = ".." then .ok (place.parent, .directory)
  else if nameLimit < name.utf8ByteSize then .error .nameTooLong
  else
    match place with
    | .above => .error .noSuchFile
    | .below names =>
        match tree.find? (names ++ [name]) with
        | some entry => .ok (.below (names ++ [name]), entry)
        | none => .error .noSuchFile

/-- Walks along names from a place where there is an entry. -/
def walk (tree : FileTree) : Place → Entry → List String → Except IoError Entry
  | _, entry, [] => .ok entry
  | place, .directory, name :: names =>
      match tree.step place name with
      | .ok (place, entry) => tree.walk place entry names
      | .error cause => .error cause
  | _, _, _ :: _ => .error .notADirectory

/-- What a path leads to. -/
def lookup (tree : FileTree) (path : String) : Except IoError Entry :=
  if path.any (· == '\x00') then .error .zeroByteInPath
  else if path = "" then .error .noSuchFile
  else if pathLimit < path.utf8ByteSize then .error .nameTooLong
  else
    let place := if path.startsWith "/" then Place.above else .below []
    tree.walk place .directory (names path)

end FileTree

end Interleave
