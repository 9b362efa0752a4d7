import SchemaMigration.Files.Access
import SchemaMigration.Migration.Script
import SchemaMigration.Selection.Settings
import SchemaMigration.Snapshot.Document

/-!
# Migrations between files

A run reads the two snapshots and the extra dependencies from files. Everything that it needs is
read before anything is written.
-/

namespace SchemaMigration

/-- Where the inputs of a run are. -/
structure Inputs where
  old : String
  new : String
  dependencies : Option String := none
  deriving DecidableEq, Repr

namespace FileAccess

variable {m : Type → Type} [Monad m] (files : FileAccess m)

/-- A document of a file. -/
def document {α : Type} (codec : Codec α) (path : String) : ExceptT MigrationError m α := do
  match codec.ofText (← files.text path) with
  | .ok value => return value
  | .error fault => throw (.badDocument path fault)

/-- The snapshot of a file. -/
def snapshot (path : String) : ExceptT MigrationError m Snapshot := do
  liftExcept (Snapshot.ofText path (← files.text path))

/-- The settings of a file, or the default ones without a file. -/
def settings (path : Option String) : ExceptT MigrationError m Settings :=
  match path with
  | some path => files.document Settings.layout.codec path
  | none => return {}

/-- The extra dependencies of a file, or none without a file. -/
def dependencies (path : Option String) : ExceptT MigrationError m ExtraDependencies :=
  match path with
  | some path => files.document ExtraDependencies.layout.codec path
  | none => return {}

/-- What scripts hold by the settings; the texts of the user are read. -/
def scriptOptions (settings : Settings) : ExceptT MigrationError m ScriptOptions := do
  return {
    transaction := settings.transaction
    checkFunctionBodies := settings.checkFunctionBodies
    pre := ← files.scripts settings.pre
    post := ← files.scripts settings.post }

/-- The migration between the inputs, which have to be of one dialect. -/
def migration (inputs : Inputs) (settings : Settings) : ExceptT MigrationError m Migration := do
  let old ← files.snapshot inputs.old
  let new ← files.snapshot inputs.new
  let extra ← files.dependencies inputs.dependencies
  if old.dialect ≠ new.dialect then throw (.dialectMismatch old.dialect new.dialect)
  liftExcept (Migration.ofSnapshots old new settings.filter extra)

/-- The text of the script between the inputs. -/
def script (inputs : Inputs) (settings : Settings) : ExceptT MigrationError m String := do
  let options ← files.scriptOptions settings
  let migration ← files.migration inputs settings
  return (← liftExcept (migration.script options)).render

/-- The text of the plan between the inputs. -/
def plan (inputs : Inputs) (settings : Settings) : ExceptT MigrationError m String := do
  return (← files.migration inputs settings).describe

end FileAccess

end SchemaMigration
