import SchemaMigration.Files.Access

/-!
# Trees of files

A tree of files in memory. It resolves paths as the system does: a path is followed name by name
from the root of the tree, `.` stays where it is, `..` goes up, and every name but the last has to
be a directory's.
-/

namespace SchemaMigration

/-- Files and directories, each by the names on the way to it. The content of a file is `none` if
its bytes are no text. -/
structure FileTree where
  files : List (List String × Option String) := []
  directories : List (List String) := []
  deriving DecidableEq, Repr, Inhabited

namespace FileTree

variable (tree : FileTree)

/-- The content of the file at the end of some names. -/
def file? (names : List String) : Option (Option String) := tree.files.lookup names

/-- Whether some names lead to a directory: the root, an empty one, or one on the way to others. -/
def hasDirectory (names : List String) : Bool :=
  names.isEmpty || (tree.directories ++ tree.files.map (·.1)).any fun other =>
    names.isPrefixOf other && (names.length < other.length || tree.directories.contains other)

/-- The longest name and the longest path that the system admits, in bytes. -/
def nameLimit : Nat := 255

/-- The length in bytes from which on a path is refused. -/
def pathLimit : Nat := 4096

/-- Follows one name from a place that was reached. -/
def follow (place : List String) (name : String) : Except FileFault (List String) :=
  let next := place ++ [name]
  if !tree.hasDirectory place then .error .notDirectory
  else if name = "" || name = "." then .ok place
  else if name = ".." then .ok place.dropLast
  else if nameLimit < name.utf8ByteSize then .error .nameTooLong
  else if (tree.file? next).isSome || tree.hasDirectory next then .ok next
  else .error .missing

/-- The names of a path; there is nothing outside the tree. -/
def segments (path : String) : Except FileFault (List String) :=
  if path.toList.contains '\x00' then .error .nulInName
  else if path.isEmpty then .error .missing
  else if pathLimit ≤ path.utf8ByteSize then .error .nameTooLong
  else if path.toList.all (· = '/') then .ok []
  else if path.toList.head? = some '/' then .error .missing
  else .ok (Text.splitAt '/' path)

/-- The place that a path leads to. -/
def resolve (path : String) : Except FileFault (List String) := do
  (← segments path).foldlM tree.follow []

/-- The text of a file. -/
def read (path : String) : Except FileFault String := do
  match tree.file? (← tree.resolve path) with
  | some (some text) => return text
  | some none => throw .notText
  | none => throw .isDirectory

/-- The files below a directory. -/
def below? (path : String) : Option (List (List String)) :=
  match tree.resolve path with
  | .error _ => none
  | .ok place =>
    if tree.hasDirectory place then
      some ((tree.files.filter fun entry => place.isPrefixOf entry.1).map fun entry =>
        entry.1.drop place.length)
    else none

/-- The tree in which a file has a new text. -/
def write (path text : String) : Except FileFault FileTree := do
  let names ← segments path
  let place ← names.dropLast.foldlM tree.follow []
  let name := names.getLastD ""
  let target := place ++ [name]
  if !tree.hasDirectory place then throw .notDirectory
  else if name = "" || name = "." || name = ".." then throw .isDirectory
  else if nameLimit < name.utf8ByteSize then throw .nameTooLong
  else if tree.hasDirectory target then throw .isDirectory
  else
    return { tree with files := (tree.files.filter (·.1 ≠ target)) ++ [(target, some text)] }

/-- The operations on a tree that is passed along. -/
def access : FileAccess (StateM FileTree) where
  read path := do return (← get).read path
  below? path := do return (← get).below? path
  write path text := do
    match (← get).write path text with
    | .ok tree => set tree; return .ok ()
    | .error fault => return .error fault

end FileTree

end SchemaMigration
