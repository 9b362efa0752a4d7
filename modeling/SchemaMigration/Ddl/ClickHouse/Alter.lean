import SchemaMigration.Ddl.Alteration
import SchemaMigration.Ddl.ClickHouse.Create

/-!
# Altering objects in ClickHouse

Settings, time to live and comments of tables change in place, as do the type and default of
columns. Owners are not looked at.
-/

namespace SchemaMigration.Ddl.ClickHouse

/-- A comment as a literal, which is empty if there is none. -/
def commentLiteral (comment : Option String) : String := literal (comment.getD "")

/-- The changes of a table whose engine and keys stay. -/
def tableChanges? (s : Statement) (old new : TableDefinition) : Option (List InPlaceChange) :=
  if old.engine ≠ new.engine ∨ old.orderBy ≠ new.orderBy ∨ old.partitionBy ≠ new.partitionBy ∨
      old.tablespace ≠ new.tablespace ∨ old.unlogged ≠ new.unlogged then none
  else
    let lead := "ALTER TABLE " ++ qualified s.id ++ " "
    let set := setOptions old.options new.options
    let gone := goneOptions old.options new.options
    let clauses :=
      (if old.ttl ≠ new.ttl then [(new.ttl.map ("MODIFY TTL " ++ ·)).getD "REMOVE TTL"] else []) ++
      (if set.isEmpty then [] else ["MODIFY SETTING " ++ Text.commaList (assignments set)]) ++
      (if gone.isEmpty then [] else ["RESET SETTING " ++ Text.commaList gone])
    some (clauses.map fun clause => { sql := lead ++ clause })

/-- The changes of a column whose collation stays. -/
def columnChanges? (s : Statement) (old new : ColumnDefinition) : Option (List InPlaceChange) :=
  if old.collation ≠ new.collation then none
  else
    let lead := "ALTER TABLE " ++ owningTable s.id ++ " MODIFY COLUMN " ++ quote s.name ++ " "
    some ((if old.dataType ≠ new.dataType ∨ old.notNull ≠ new.notNull then
        [{ sql := lead ++ new.dataType, invalidating := true }] else []) ++
      (if old.default ≠ new.default then
        [{ sql := lead ++ (new.default.map ("DEFAULT " ++ ·)).getD "REMOVE DEFAULT" }] else []))

/-- The statement that sets the comment, for the kinds of objects that have one. -/
def commentStatement? (s : Statement) : Option String :=
  match s.kind with
  | .schema =>
    some ("ALTER DATABASE " ++ qualified s.id ++ " MODIFY COMMENT " ++ commentLiteral s.comment)
  | .table =>
    some ("ALTER TABLE " ++ qualified s.id ++ " MODIFY COMMENT " ++ commentLiteral s.comment)
  | .column =>
    some ("ALTER TABLE " ++ owningTable s.id ++ " COMMENT COLUMN " ++ quote s.name ++ " " ++
      commentLiteral s.comment)
  | _ => none

/-- The statements that bring the definition of an object to the new one; nothing if it has to be
created anew. -/
def definitionChanges? (old : Definition) (s : Statement) : Option (List InPlaceChange) :=
  match old, s.definition with
  | .database, .database => some []
  | .schema old, .schema new => if old = new then some [] else none
  | .role old, .role new =>
    some (if old = new then []
      else [{ sql := "ALTER ROLE " ++ qualified s.id ++ " SETTINGS " ++
        (if new.options.isEmpty then "NONE" else Text.commaList new.options) }])
  | .table old, .table new => tableChanges? s old new
  | .column old, .column new => columnChanges? s old new
  | .view old, .view new =>
    if old = new then some []
    else if old.materialized || new.materialized then none
    else some [{ sql := "CREATE OR REPLACE" ++ viewDefinition s new }]
  | .function old, .function new =>
    some (if old = new then [] else [{ sql := "CREATE OR REPLACE" ++ functionDefinition s new }])
  | _, _ => none

/-- How a changed object is brought to its new definition and comment. -/
def alter (old new : Statement) : Except MigrationError Alteration :=
  if !Dialect.clickHouse.supports new.kind then unsupported new.kind
  else
    .ok <| .ofChanges? <| (definitionChanges? old.definition new).map fun changes =>
      let comment := if old.comment ≠ new.comment then (commentStatement? new).toList else []
      changes ++ comment.map (⟨·, false⟩)

end SchemaMigration.Ddl.ClickHouse
