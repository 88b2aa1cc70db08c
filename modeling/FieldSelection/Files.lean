import FieldSelection.Text.Separated

/-!
Files as a program finds them.

* `Lookup`: what is found under a path, and why it cannot be read if it cannot.
* `FileTree.ofList`: the tree that comes of writing files one after the other.
* `FileTree.find`: what is found in a tree, seen from its root; there are only the
  directories that lie on the way to some file.
-/

namespace FieldSelection

/-- What is found under a path. -/
inductive Lookup where
  /-- A file that holds a text. -/
  | text (content : String)
  /-- A file that holds something else. -/
  | binary
  | directory
  | missing
  /-- The path goes on below a file. -/
  | notDirectory
  /-- The path or a name on it is too long. -/
  | tooLong
  /-- A file or directory that may not be read. -/
  | unreadable
  /-- A directory on the path may not be entered. -/
  | unreachable
  /-- The links on the path lead to each other without end. -/
  | linkLoop
  deriving DecidableEq, Repr

namespace Lookup

/-- Whether there is anything under the path. -/
def exists? : Lookup → Bool
  | .text _ | .binary | .directory | .unreadable => true
  | .missing | .notDirectory | .tooLong | .unreachable | .linkLoop => false

/-- The text under the path, or the reason why it cannot be read. -/
def read : Lookup → Except String String
  | .text content => .ok content
  | .binary => .error "stream did not contain valid UTF-8"
  | .directory => .error "Is a directory (os error 21)"
  | .missing => .error "No such file or directory (os error 2)"
  | .notDirectory => .error "Not a directory (os error 20)"
  | .tooLong => .error "File name too long (os error 36)"
  | .unreadable | .unreachable => .error "Permission denied (os error 13)"
  | .linkLoop => .error "Too many levels of symbolic links (os error 40)"

end Lookup

/-! ### Places in a tree -/

/-- A place in a tree: the names on the way from the root, the last one first. -/
abbrev Names := List String

/-- The names on a path, the first one first. Neighbouring slashes have an empty
name between them. -/
def pathNames (path : String) : List String :=
  (Text.split '/' path.toList).map .ofList

/-- Whether a name on a path stays where it is. -/
def staysPut (name : String) : Bool :=
  name = "" || name = "."

/-- The place that a name leads to. -/
def Names.enter (place : Names) (name : String) : Names :=
  if staysPut name then place
  else if name = ".." then place.tail
  else name :: place

/-- The places before each of some names and after the last one. -/
def Names.trail (place : Names) : List String → List Names
  | [] => [place]
  | name :: rest => place :: trail (place.enter name) rest

/-- Files and directories by their places; `none` stands for a file without a
text. -/
structure FileTree where
  files : List (Names × Option String) := []
  directories : List Names := []

namespace FileTree

/-- Write a file, and make the directories on its path. -/
def write (tree : FileTree) (path : String) (content : Option String) : FileTree :=
  let trail := Names.trail [] (pathNames path)
  { files := (trail.getLast?.getD [], content) :: tree.files
    directories := trail.dropLast ++ tree.directories }

/-- The tree that comes of writing files one after the other. -/
def ofList (files : List (String × Option String)) : FileTree :=
  files.foldl (fun tree (path, content) => tree.write path content) {}

/-- The file at a place; of several, the one written last. -/
def file? (tree : FileTree) (place : Names) : Option Lookup :=
  (tree.files.find? (·.1 = place)).map fun (_, content) =>
    match content with
    | some content => .text content
    | none => .binary

/-! ### Following paths -/

/-- The number of bytes that a name may have. -/
def longestName : Nat := 255

/-- The number of bytes that a path may have. -/
def longestPath : Nat := 4095

/-- Follow names from a directory. Outside the tree, which `none` stands for,
nothing is found. -/
def walk (tree : FileTree) : Option Names → List String → Lookup
  | _, [] => .directory
  | place, name :: rest =>
    if staysPut name then walk tree place rest
    else if longestName < name.utf8ByteSize then .tooLong
    else
      match place with
      | none => if name = ".." then walk tree none rest else .missing
      | some directory =>
        if name = ".." then
          match directory with
          | [] => walk tree none rest
          | _ :: above => walk tree (some above) rest
        else
          match tree.file? (name :: directory) with
          | some file => if rest = [] then file else .notDirectory
          | none =>
            if name :: directory ∈ tree.directories then
              walk tree (some (name :: directory)) rest
            else .missing

/-- What is found under a path. -/
def find (tree : FileTree) (path : String) : Lookup :=
  if longestPath < path.utf8ByteSize then .tooLong
  else
    match pathNames path with
    | [""] => .missing
    | "" :: rest => walk tree none rest
    | names => walk tree (some []) names

end FileTree

end FieldSelection
