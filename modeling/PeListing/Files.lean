import PeListing.Bytes.Buffer
import PeListing.Text.Split

/-!
# Files

What the program sees of the files around it: a path names a file or a folder, or the operating
system says why it names neither (`Files`).

`FileTree` is such a view on files that are given outright. A path is followed from name to name.
An empty name and a single dot stay where they are, two dots go up one folder, and only a folder can
be gone on from. Nothing is known of the folders above and of those that an absolute path starts at,
except that they are there.
-/

namespace PeListing

/-- Why the operating system refuses. -/
inductive SystemError where
  /-- Nothing has that name. -/
  | noEntry
  /-- What can only be mapped from a file is no file. -/
  | noDevice
  /-- A file stands where a folder is wanted. -/
  | notDirectory
  /-- A folder stands where a file is wanted. -/
  | isDirectory
  /-- A name, or the whole path, is too long. -/
  | nameTooLong
  /-- Anything else. -/
  | other (text : String)
  deriving DecidableEq, Repr

/-- What the operating system says. -/
def SystemError.message : SystemError → String
  | .noEntry => "No such file or directory (os error 2)"
  | .noDevice => "No such device (os error 19)"
  | .notDirectory => "Not a directory (os error 20)"
  | .isDirectory => "Is a directory (os error 21)"
  | .nameTooLong => "File name too long (os error 36)"
  | .other text => text

/-- What a path names. -/
inductive Opened where
  /-- A file. -/
  | file (contents : Buffer)
  /-- A folder, which is reported with a size of its own. -/
  | folder (size : Nat)

/-- What each path names. -/
abbrev Files : Type := String → Except SystemError Opened

/-- The size that a folder is reported with. -/
def folderSize : Nat := 4096

/-- Files, each with the names of the folders on the way to it and its own. -/
structure FileTree where
  /-- The files. -/
  files : List (List String × Buffer)

namespace FileTree

/-- A name has at most so many bytes. -/
def maxNameLength : Nat := 255

/-- A path has fewer bytes than this. -/
def pathLimit : Nat := 4096

/-- How far a path has been followed. -/
inductive Place where
  /-- A folder of the tree, with the names on the way to it, the latest first. -/
  | folder (names : List String)
  /-- A folder outside the tree. -/
  | outside
  /-- A file. -/
  | file (contents : Buffer)

/-- The names in a path. -/
def names (path : String) : List String := (Text.split '/' path.toList).map String.ofList

/-- What stands at the end of some names. -/
def lookup? (t : FileTree) (names : List String) : Option Place :=
  match t.files.lookup names with
  | some contents => some (.file contents)
  | none =>
    if t.files.any fun (other, _) => names.isPrefixOf other then some (.folder names.reverse)
    else none

/-- The folder above. -/
def Place.above : Place → Place
  | .folder (_ :: rest) => .folder rest
  | _ => .outside

/-- Goes on to a name. -/
def follow (t : FileTree) (place : Place) (name : String) : Except SystemError Place :=
  match place with
  | .file _ => .error .notDirectory
  | folder =>
    if name = "" ∨ name = "." then .ok folder
    else if name = ".." then .ok folder.above
    else if maxNameLength < name.utf8ByteSize then .error .nameTooLong
    else
      match folder with
      | .folder names =>
        match t.lookup? (names.reverse ++ [name]) with
        | some next => .ok next
        | none => .error .noEntry
      | _ => .error .noEntry

/-- Where a path starts. -/
def origin (path : String) : Place := if Text.startsWith "/" path then .outside else .folder []

/-- What a path names. -/
def view (t : FileTree) : Files := fun path =>
  if pathLimit ≤ path.utf8ByteSize then .error .nameTooLong
  else
    match (names path).foldlM t.follow (origin path) with
    | .error e => .error e
    | .ok (.file contents) => .ok (.file contents)
    | .ok _ => .ok (.folder folderSize)

end FileTree

end PeListing
