import SchemaMigration.Error
import SchemaMigration.Text.Segment

/-!
# Access to files

Everything that a run does with files, as operations in some monad: in `IO` on the files of the
system, in a state monad on a tree of files in memory.
-/

namespace SchemaMigration

/-- The operations on files. Paths are written with slashes. -/
structure FileAccess (m : Type → Type) where
  /-- The text of a file. -/
  read : String → m (Except FileFault String)
  /-- The files below a directory, each as the list of names that leads to it, in any order; nothing
  if the path is not a directory. -/
  below? : String → m (Option (List (List String)))
  /-- Writes a text to a file, which is created if it is missing. -/
  write : String → String → m (Except FileFault Unit)

namespace FileAccess

/-- The names that lead to a file below a directory, as a path from where the directory's starts. -/
def pathBelow (directory : String) (names : List String) : String :=
  let path := Text.join "/" names
  if directory.toList.getLast? = some '/' then directory ++ path else directory ++ "/" ++ path

/-- Whether a file is a script: its name ends in `.sql` and has something in front of that. -/
def isScript (name : String) : Bool :=
  let ending := ['.', 's', 'q', 'l']
  ending.isSuffixOf name.toList && ending.length < name.length

variable {m : Type → Type} [Monad m] (files : FileAccess m)

/-- The text of a file that the run cannot do without. -/
def text (path : String) : ExceptT MigrationError m String :=
  ExceptT.mk ((·.mapError (.unreadable path)) <$> files.read path)

/-- The texts of some files. -/
def texts (paths : List String) : ExceptT MigrationError m (List String) := paths.mapM files.text

/-- The scripts at a path: of a directory every script below it, ordered by the names on the way. -/
def scriptsAt (path : String) : ExceptT MigrationError m (List String) := do
  match ← files.below? path with
  | none => return [← files.text path]
  | some found =>
    let scripts := found.filter fun names => isScript (names.getLastD "")
    let ordered := scripts.mergeSort fun a b => (Text.compareSegments a b).isLE
    files.texts (ordered.map (pathBelow path))

/-- The scripts at some paths. -/
def scripts (paths : List String) : ExceptT MigrationError m (List String) := do
  return (← paths.mapM files.scriptsAt).flatten

end FileAccess

end SchemaMigration
