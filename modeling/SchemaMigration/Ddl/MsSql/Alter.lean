import SchemaMigration.Ddl.Alteration
import SchemaMigration.Ddl.MsSql.Create

/-!
# Altering objects in MS SQL

Modules are altered by stating their definition again, after which views and functions invalidate
what depends on them. A column is altered as a whole, its default apart.
-/

namespace SchemaMigration.Ddl.MsSql

/-- The changes of a table. Storage parameters cannot be removed, and nothing else can change. -/
def tableChanges? (s : Statement) (old new : TableDefinition) : Option (List InPlaceChange) :=
  if { old with options := new.options } ≠ new ∨ goneOptions old.options new.options ≠ [] then none
  else if old.options = new.options then some []
  else some [{ sql := "ALTER TABLE " ++ qualified s.id ++ " SET (" ++ tableOptions new ++ ")" }]

/-- The changes of a column. -/
def columnChanges (id : ObjectId) (old new : ColumnDefinition) : List InPlaceChange :=
  (if old.dataType ≠ new.dataType ∨ old.notNull ≠ new.notNull ∨ old.collation ≠ new.collation then
    [{ sql := "ALTER TABLE " ++ owningTable id ++ " ALTER COLUMN " ++ quote id.name ++ " " ++
        new.dataType ++ optional " COLLATE " new.collation ++ nullability new.notNull
       invalidating := true }]
    else []) ++
  if old.default = new.default then []
  else
    (if old.default.isSome then [{ sql := dropDefault id }] else []) ++
      new.default.toList.map fun default =>
        { sql := "ALTER TABLE " ++ owningTable id ++ " ADD CONSTRAINT " ++
            quote (defaultName id) ++ " DEFAULT " ++ default ++ " FOR " ++ quote id.name }

/-- The definition of a module stated again. -/
def redefinition (s : Statement) (invalidating : Bool) : List InPlaceChange :=
  (module? s).toList.map fun definition => { sql := "ALTER" ++ definition, invalidating }

/-- The statements that bring the definition of an object to the new one; nothing if it has to be
created anew. -/
def definitionChanges? (old : Definition) (s : Statement) : Option (List InPlaceChange) :=
  match old, s.definition with
  | .database, .database => some []
  | .table old, .table new => tableChanges? s old new
  | .column old, .column new => some (columnChanges s.id old new)
  | .view old, .view new =>
    if old.materialized ≠ new.materialized then none
    else if old = new then some []
    else some (redefinition s true)
  | .function old, .function new =>
    if old.language ≠ new.language then none
    else if old = new then some []
    else some (redefinition s true)
  | .procedure old, .procedure new => some (if old = new then [] else redefinition s false)
  | .trigger old, .trigger new => some (if old = new then [] else redefinition s false)
  | .sequence old, .sequence new =>
    if old.dataType ≠ new.dataType then none
    else
      match sequenceClauses (some old) new with
      | [] => some []
      | clauses =>
        some [{ sql := "ALTER SEQUENCE " ++ qualified s.id ++ " " ++ Text.join " " clauses }]
  | .schema old, .schema new => if old = new then some [] else none
  | .role old, .role new => if old = new then some [] else none
  | .type old, .type new => if old = new then some [] else none
  | _, _ => none

/-- How a changed object is brought to its new definition, owner and comment. -/
def alter (old new : Statement) : Except MigrationError Alteration :=
  if !Dialect.msSql.supports new.kind then unsupported new.kind
  else
    .ok <| .ofChanges? <| (definitionChanges? old.definition new).map fun changes =>
      let owner := if old.owner ≠ new.owner then (ownerStatement? new).toList else []
      let comment :=
        if old.comment ≠ new.comment then (commentStatement? old.comment new).toList else []
      changes ++ (owner ++ comment).map (⟨·, false⟩)

end SchemaMigration.Ddl.MsSql
