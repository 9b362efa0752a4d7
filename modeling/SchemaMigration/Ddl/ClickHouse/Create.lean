import SchemaMigration.Ddl.Clause
import SchemaMigration.Snapshot.Basic

/-!
# Creating and dropping objects in ClickHouse

Schemas are databases. Comments are part of definitions. The only constraints are conditions.
-/

namespace SchemaMigration.Ddl.ClickHouse

/-- An identifier as it stands in a statement. -/
def quote (ident : String) : String := Dialect.clickHouse.quote ident

/-- The qualified name of an object. -/
def qualified (id : ObjectId) : String := Dialect.clickHouse.qualified id

/-- The qualified name of the table that owns a sub-element. -/
def owningTable (id : ObjectId) : String := Dialect.clickHouse.owningTable id

/-- The fault of a kind of object that the dialect does not have. -/
def unsupported {α : Type} (kind : ObjectKind) : Except MigrationError α :=
  .error (.unsupportedKind .clickHouse kind)

/-- A comment as a clause. -/
def commentClause (lead : String) (comment : Option String) : String :=
  optional lead (comment.map literal)

/-- A column as it stands in the definition of a table. -/
def columnClause (s : Statement) (column : ColumnDefinition) : String :=
  quote s.name ++ " " ++ column.dataType ++ optional " COLLATE " column.collation ++
    optional " DEFAULT " column.default ++ commentClause " COMMENT " s.comment

/-- A constraint as it stands in the definition of a table. -/
def constraintClause (s : Statement) (constraint : ConstraintDefinition) :
    Except MigrationError String :=
  if constraint.type = .check then
    .ok ("CONSTRAINT " ++ quote s.name ++ " CHECK " ++ constraint.expression.getD "1")
  else unsupported .constraint

/-- A child of a table as it stands in the table's definition. -/
def tableLine? (detached : List ObjectId) (child : Statement) :
    Except MigrationError (Option String) :=
  match child.definition with
  | .column column => .ok (some ("    " ++ columnClause child column))
  | .constraint constraint =>
    if detached.contains child.id then .ok none
    else (constraintClause child constraint).map fun clause => some ("    " ++ clause)
  | _ => .ok none

/-- The engine of a table that names none. -/
def defaultEngine : String := "MergeTree"

/-- The definition of a table with the given lines. An engine of the merge tree family needs a
sorting key. -/
def tableText (s : Statement) (table : TableDefinition) (lines : List String) : String :=
  let engine := table.engine.getD defaultEngine
  let sorting :=
    if table.orderBy.isNone && Text.occursIn defaultEngine.toList engine.toList then some "tuple()"
    else table.orderBy
  "CREATE TABLE " ++ qualified s.id ++ "\n(\n" ++ Text.join ",\n" lines ++
    "\n)\nENGINE = " ++ engine ++ optional "\nPARTITION BY " table.partitionBy ++
    optional "\nORDER BY " sorting ++ optional "\nTTL " table.ttl ++
    onlyIf (!table.options.isEmpty)
      ("\nSETTINGS " ++ Text.commaList (assignments table.options)) ++
    commentClause "\nCOMMENT " s.comment

/-- The definition of a table. -/
def createTable (s : Statement) (table : TableDefinition) (children : List Statement)
    (detached : List ObjectId) : Except MigrationError String := do
  return tableText s table (← children.filterMapM (tableLine? detached))

/-- The definition of a function behind the verb. -/
def functionDefinition (s : Statement) (routine : RoutineDefinition) : String :=
  " FUNCTION " ++ quote s.id.bareName ++ " AS (" ++
    Text.commaList (routine.arguments.filterMap (·.name)) ++ ") -> " ++ routine.body

/-- The definition of a view behind the verb. -/
def viewDefinition (s : Statement) (view : ViewDefinition) : String :=
  (if view.materialized then
    " MATERIALIZED VIEW " ++ qualified s.id ++ optional "\nENGINE = " view.engine
    else " VIEW " ++ qualified s.id) ++ "\nAS " ++ viewQuery view.query

/-- The statement that defines an object. -/
def define? (s : Statement) (children : List Statement) (detached : List ObjectId) :
    Except MigrationError (Option String) :=
  match s.definition with
  | .database => .ok none
  | .schema schema =>
    .ok (some ("CREATE DATABASE " ++ qualified s.id ++ optional " ENGINE = " schema.engine ++
      commentClause " COMMENT " s.comment))
  | .role role =>
    .ok (some ("CREATE ROLE " ++ qualified s.id ++
      onlyIf (!role.options.isEmpty) (" SETTINGS " ++ Text.commaList role.options)))
  | .table table => (createTable s table children detached).map some
  | .column column =>
    .ok (some ("ALTER TABLE " ++ owningTable s.id ++ " ADD COLUMN " ++ columnClause s column))
  | .constraint constraint =>
    (constraintClause s constraint).map fun clause =>
      some ("ALTER TABLE " ++ owningTable s.id ++ " ADD " ++ clause)
  | .index index =>
    .ok (some ("ALTER TABLE " ++ owningTable s.id ++ " ADD INDEX " ++ quote s.name ++ " (" ++
      Text.commaList index.columns ++ ") TYPE " ++ index.method.getD "minmax" ++ " GRANULARITY " ++
      Nat.repr (index.granularity.getD 1).toNat))
  | .view view => .ok (some ("CREATE" ++ viewDefinition s view))
  | .function routine => .ok (some ("CREATE" ++ functionDefinition s routine))
  | definition => unsupported definition.kind

/-- The statements that create an object. -/
def create (s : Statement) (snapshot : Snapshot) (detached : List ObjectId) :
    Except MigrationError (List String) :=
  if !Dialect.clickHouse.supports s.kind then unsupported s.kind
  else (define? s (snapshot.children s.id) detached).map Option.toList

/-- The statements that drop an object. -/
def drop (s : Statement) : Except MigrationError (List String) :=
  if !Dialect.clickHouse.supports s.kind then unsupported s.kind
  else
    match s.kind with
    | .database => .ok []
    | .schema => .ok ["DROP DATABASE " ++ qualified s.id]
    | .role => .ok ["DROP ROLE " ++ qualified s.id]
    | .table => .ok ["DROP TABLE " ++ qualified s.id]
    | .view => .ok ["DROP VIEW " ++ qualified s.id]
    | .function => .ok ["DROP FUNCTION " ++ quote s.id.bareName]
    | kind =>
      .ok ["ALTER TABLE " ++ owningTable s.id ++ " DROP " ++ kind.keyword ++ " " ++ quote s.name]

end SchemaMigration.Ddl.ClickHouse
