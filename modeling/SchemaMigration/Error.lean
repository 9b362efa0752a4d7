import SchemaMigration.Dialect.Basic
import SchemaMigration.Object.Id

/-!
# Faults of a migration

Every way in which comparing two schemas can fail, with its message. Internal faults point to an
inconsistent request rather than to bad input.
-/

namespace SchemaMigration

/-- The two schemas of a comparison. -/
inductive Side where
  | old
  | new
  deriving DecidableEq, Repr

/-- The word for a side in messages. -/
def Side.name : Side → String
  | old => "old"
  | new => "new"

/-- Why a file could not be read or written. -/
inductive FileFault where
  | missing
  | isDirectory
  | notDirectory
  | nameTooLong
  | nulInName
  /-- The bytes of a file are no UTF-8 text. -/
  | notText
  | other (message : String)
  deriving DecidableEq, Repr

/-- The message of the system for a fault of a file. -/
def FileFault.message : FileFault → String
  | missing => "No such file or directory (os error 2)"
  | isDirectory => "Is a directory (os error 21)"
  | notDirectory => "Not a directory (os error 20)"
  | nameTooLong => "File name too long (os error 36)"
  | nulInName => "file name contained an unexpected NUL byte"
  | notText => "stream did not contain valid UTF-8"
  | other message => message

/-- A fault of a migration. -/
inductive MigrationError where
  | unresolvedReference (id : ObjectId) (side : Side)
  | unresolvableCycle (objects : List String)
  | unsupportedKind (dialect : Dialect) (kind : ObjectKind)
  | typeMismatch (id : ObjectId) (left right : ObjectKind)
  | invalidHierarchy (parent child : ObjectId)
  | missingDependency (dependent dependency : ObjectId)
  | duplicateObject (id : ObjectId)
  | dialectMismatch (old new : Dialect)
  | pendingAnalysis (count : Nat)
  | unknownKind (text : String)
  | unreadable (path : String) (fault : FileFault)
  | badDocument (path : String) (error : DecodeError)
  deriving DecidableEq, Repr

namespace MigrationError

/-- The message of a fault. -/
def message : MigrationError → String
  | unresolvedReference id side =>
    "Unresolved reference: " ++ id.display ++ " is not present in the " ++ side.name ++ " snapshot"
  | unresolvableCycle objects =>
    "Unresolvable dependency cycle between: " ++ Text.commaList objects
  | unsupportedKind dialect kind =>
    kind.keyword ++ " objects are not supported by the " ++ dialect.display ++ " dialect"
  | typeMismatch id left right =>
    "Object " ++ id.display ++ " has mismatched types: " ++ left.keyword ++ " and " ++ right.keyword
  | invalidHierarchy parent child =>
    child.display ++ " cannot be placed under " ++ parent.display
  | missingDependency dependent dependency =>
    dependent.display ++ " depends on " ++ dependency.display ++ ", which does not exist"
  | duplicateObject id => "Duplicate object: " ++ id.display
  | dialectMismatch old new =>
    "Snapshot dialects differ: old is " ++ old.display ++ ", new is " ++ new.display
  | pendingAnalysis count =>
    Nat.repr count ++
      " analysis tasks are still pending; drain them before building the snapshot"
  | unknownKind text => "Unknown object type: " ++ text
  | unreadable path fault => "Failed to read " ++ path ++ ": " ++ fault.message
  | badDocument path error => "Invalid JSON in " ++ path ++ ": " ++ error.message

/-- Whether a fault points to an inconsistent request rather than to bad input. -/
def isInternal : MigrationError → Bool
  | unresolvedReference .. | unresolvableCycle .. | unsupportedKind .. | typeMismatch ..
  | pendingAnalysis .. | missingDependency .. => true
  | _ => false

end MigrationError

end SchemaMigration
