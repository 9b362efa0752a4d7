import SchemaMigration.Migration.Basic
import SchemaMigration.Script.Buffer

/-!
# Scripts of migrations

The script of a migration opens with the settings of the dialect and the start of a transaction,
followed by the texts that the user wants in front. The actions are its body. The texts that the
user wants behind and the end of the transaction close it. A migration without actions has an empty
script.
-/

namespace SchemaMigration

/-- What a script holds beside the actions. -/
structure ScriptOptions where
  /-- Whether the script is one transaction, where the dialect has them. -/
  transaction : Bool := true
  /-- Whether PostgreSQL checks the bodies of routines as they are created. -/
  checkFunctionBodies : Bool := true
  /-- Texts in front of the actions. -/
  pre : List String := []
  /-- Texts behind the actions. -/
  post : List String := []
  deriving DecidableEq, Repr

namespace ScriptOptions

/-- The statements that open a script. -/
def opening (options : ScriptOptions) : Dialect → List String
  | .postgres =>
    ["SET search_path = pg_catalog"] ++
      (if options.checkFunctionBodies then [] else ["SET check_function_bodies = false"]) ++
      (if options.transaction then ["START TRANSACTION"] else [])
  | .msSql =>
    ["SET QUOTED_IDENTIFIER ON", "SET ANSI_NULLS ON"] ++
      (if options.transaction then ["BEGIN TRANSACTION"] else [])
  | .clickHouse => []

/-- The statements that close a script. -/
def closing (options : ScriptOptions) : Dialect → List String
  | .postgres => if options.transaction then ["COMMIT TRANSACTION"] else []
  | .msSql => if options.transaction then ["COMMIT"] else []
  | .clickHouse => []

end ScriptOptions

namespace Migration

/-- The statements of one action. -/
def statementsOf (m : Migration) (action : Action) : Except MigrationError (List String) :=
  match action.kind with
  | .create => m.new.dialect.create action.statement m.new m.detached
  | .drop => m.new.dialect.drop action.statement
  | .alter => .ok action.statements
  | .passThrough => .ok []

/-- The statements of all actions, in order. -/
def statements (m : Migration) : Except MigrationError (List String) := do
  return (← m.actions.mapM m.statementsOf).flatten

/-- The script of a migration. -/
def script (m : Migration) (options : ScriptOptions) : Except MigrationError Script := do
  let dialect := m.new.dialect
  if m.isEmpty then return { dialect }
  let body ← m.statements
  let opened := (Script.pushAll { dialect } .opening (options.opening dialect)).pushAllVerbatim
    .opening options.pre
  let closed := (opened.pushAll .body body).pushAllVerbatim .closing options.post
  return closed.pushAll .closing (options.closing dialect)

end Migration

end SchemaMigration
