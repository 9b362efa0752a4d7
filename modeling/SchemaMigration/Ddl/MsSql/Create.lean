import SchemaMigration.Ddl.Clause
import SchemaMigration.Snapshot.Basic

/-!
# Creating and dropping objects in MS SQL

The default of a column is a constraint with a name of its own, by which it can be dropped.
Comments are extended properties. Views, routines and triggers are modules, whose definition stands
behind `CREATE` or `ALTER` alike.
-/

namespace SchemaMigration.Ddl.MsSql

/-- An identifier as it stands in a statement. -/
def quote (ident : String) : String := Dialect.msSql.quote ident

/-- The qualified name of an object. -/
def qualified (id : ObjectId) : String := Dialect.msSql.qualified id

/-- The qualified name of the table that owns a sub-element. -/
def owningTable (id : ObjectId) : String := Dialect.msSql.owningTable id

/-- A text as a national string literal. -/
def nationalLiteral (value : String) : String := "N" ++ literal value

/-- The fault of a kind of object that the dialect does not have. -/
def unsupported {α : Type} (kind : ObjectKind) : Except MigrationError α :=
  .error (.unsupportedKind .msSql kind)

/-! ## Columns -/

/-- The name of the constraint that holds the default of a column. -/
def defaultName (column : ObjectId) : String :=
  match column.path with
  | [_, table, name] => "DF_" ++ table ++ "_" ++ name
  | _ => "DF_" ++ column.name

/-- Whether a column takes nulls. -/
def nullability (notNull : Bool) : String := if notNull then " NOT NULL" else " NULL"

/-- A column as it stands in the definition of a table. -/
def columnClause (id : ObjectId) (column : ColumnDefinition) : String :=
  quote id.name ++ " " ++ column.dataType ++ optional " COLLATE " column.collation ++
    nullability column.notNull ++
    optional (" CONSTRAINT " ++ quote (defaultName id) ++ " DEFAULT ") column.default

/-- The statement that drops the default of a column. -/
def dropDefault (column : ObjectId) : String :=
  "ALTER TABLE " ++ owningTable column ++ " DROP CONSTRAINT " ++ quote (defaultName column)

/-! ## Owners and comments -/

/-- The word for an object that carries a comment itself or whose column does. -/
def propertyLevel? : ObjectKind → Option String
  | .table | .column => some "TABLE"
  | .view => some "VIEW"
  | .function => some "FUNCTION"
  | .procedure => some "PROCEDURE"
  | _ => none

/-- The arguments by which the procedures for extended properties find an object. -/
def propertyLevels? (s : Statement) : Option String := do
  let level ← propertyLevel? s.kind
  let schema ← s.id.path[0]?
  let name ← s.id.path[1]?
  return "@level0type = N'SCHEMA', @level0name = " ++ nationalLiteral schema ++
    ", @level1type = N'" ++ level ++ "', @level1name = " ++
    nationalLiteral (Text.before '(' name) ++
    onlyIf (s.kind = .column)
      (", @level2type = N'COLUMN', @level2name = " ++ nationalLiteral s.name)

/-- The statement that brings the comment of an object from an old one to its own, if the object
can carry one and there is something to do. -/
def commentStatement? (old : Option String) (s : Statement) : Option String := do
  let levels ← propertyLevels? s
  match old, s.comment with
  | none, some comment =>
    some ("EXEC sys.sp_addextendedproperty @name = N'MS_Description', @value = " ++
      nationalLiteral comment ++ ", " ++ levels)
  | some _, some comment =>
    some ("EXEC sys.sp_updateextendedproperty @name = N'MS_Description', @value = " ++
      nationalLiteral comment ++ ", " ++ levels)
  | some _, none =>
    some ("EXEC sys.sp_dropextendedproperty @name = N'MS_Description', " ++ levels)
  | none, none => none

/-- The class of an object that a role owns. -/
def securable? : ObjectKind → Option String
  | .schema => some "SCHEMA"
  | .role => some "ROLE"
  | .type => some "TYPE"
  | .table | .view | .function | .procedure | .sequence => some "OBJECT"
  | _ => none

/-- The statement that sets the owner, if there is one. -/
def ownerStatement? (s : Statement) : Option String := do
  let owner ← s.owner
  let securable ← securable? s.kind
  return "ALTER AUTHORIZATION ON " ++ securable ++ "::" ++ qualified s.id ++ " TO " ++ quote owner

/-! ## Tables -/

/-- The storage parameters of a table. -/
def tableOptions (table : TableDefinition) : String :=
  Text.commaList
    (assignments (table.options.map fun (name, value) => (Text.upperAscii name, value)))

/-- A child of a table as it stands in the table's definition. -/
def tableLine? (detached : List ObjectId) (child : Statement) : Option String :=
  match child.definition with
  | .column column => some ("\t" ++ columnClause child.id column)
  | .constraint constraint =>
    if detached.contains child.id then none
    else some ("\tCONSTRAINT " ++ quote child.name ++ " " ++ constraintClause .msSql constraint)
  | _ => none

/-- The definition of a table with the given lines. -/
def tableText (s : Statement) (table : TableDefinition) (lines : List String) : String :=
  "CREATE TABLE " ++ qualified s.id ++ " (\n" ++ Text.join ",\n" lines ++ "\n)" ++
    optional " ON " (table.tablespace.map quote) ++
    onlyIf (!table.options.isEmpty) (" WITH (" ++ tableOptions table ++ ")")

/-- The definition of a table. -/
def createTable (s : Statement) (table : TableDefinition) (children : List Statement)
    (detached : List ObjectId) : String :=
  tableText s table (children.filterMap (tableLine? detached))

/-! ## Modules -/

/-- The parameters of a routine, the first of which has the given number. A parameter without a
name is named for its number. -/
def parameters : Nat → List RoutineArgument → List String
  | _, [] => []
  | position, argument :: rest =>
    let name := argument.name.getD ("p" ++ Nat.repr position)
    ((if name.toList.head? = some '@' then name else "@" ++ name) ++ " " ++ argument.dataType ++
      optional " = " argument.default) :: parameters (position + 1) rest

/-- The definition of a view behind the verb. -/
def viewModule (s : Statement) (view : ViewDefinition) : String :=
  " VIEW " ++ qualified s.id ++
    onlyIf (!view.columns.isEmpty) (" (" ++ Dialect.msSql.quoteList view.columns ++ ")") ++
    onlyIf view.materialized " WITH SCHEMABINDING" ++ "\nAS\n" ++ viewQuery view.query

/-- The definition of a function behind the verb. -/
def functionModule (s : Statement) (routine : RoutineDefinition) : String :=
  " FUNCTION " ++ qualified s.id ++ "(" ++ Text.commaList (parameters 1 routine.arguments) ++
    ")\nRETURNS " ++ routine.returns.getD "int" ++ "\nAS\n" ++ routine.body

/-- The definition of a procedure behind the verb. -/
def procedureModule (s : Statement) (routine : RoutineDefinition) : String :=
  let parameters := parameters 1 routine.arguments
  " PROCEDURE " ++ qualified s.id ++
    onlyIf (!parameters.isEmpty) ("\n\t" ++ Text.join ",\n\t" parameters) ++ "\nAS\n" ++
    routine.body

/-- The name of a trigger, which lives in the schema of its table. -/
def triggerName (id : ObjectId) : String :=
  quote (id.schemaName?.getD "dbo") ++ "." ++ quote id.bareName

/-- The definition of a trigger behind the verb. -/
def triggerModule (s : Statement) (trigger : TriggerDefinition) : String :=
  " TRIGGER " ++ triggerName s.id ++ " ON " ++ owningTable s.id ++ "\n" ++ trigger.timing ++ " " ++
    Text.commaList trigger.events ++ "\nAS\n" ++ trigger.body.getD ""

/-- The definition of a module behind the verb. -/
def module? (s : Statement) : Option String :=
  match s.definition with
  | .view view => some (viewModule s view)
  | .function routine => some (functionModule s routine)
  | .procedure routine => some (procedureModule s routine)
  | .trigger trigger => some (triggerModule s trigger)
  | _ => none

/-! ## Other objects -/

/-- The definition of an index. -/
def createIndex (s : Statement) (index : IndexDefinition) : String :=
  "CREATE " ++ onlyIf index.unique "UNIQUE " ++
    ((index.method.map fun method => Text.upperAscii method ++ " ").getD "") ++ "INDEX " ++
    quote s.name ++ " ON " ++ owningTable s.id ++ " (" ++ Text.commaList index.columns ++ ")" ++
    optional " WHERE " index.predicate ++ optional " ON " (index.tablespace.map quote)

/-- The clauses of a sequence that differ from those of an old one, or all of them. -/
def sequenceClauses (old : Option SequenceDefinition) (new : SequenceDefinition) : List String :=
  let differs (field : SequenceDefinition → Option Int64) : Bool :=
    old.map field ≠ some (field new)
  (match old with
    | none =>
      (new.dataType.map ("AS " ++ ·)).toList ++ (new.start.map ("START WITH " ++ integer ·)).toList
    | some _ =>
      if differs (·.start) then (new.start.map ("RESTART WITH " ++ integer ·)).toList else []) ++
  (if differs (·.increment) then ["INCREMENT BY " ++ integer (new.increment.getD 1)] else []) ++
  (if differs (·.minValue) then
    [(new.minValue.map ("MINVALUE " ++ integer ·)).getD "NO MINVALUE"] else []) ++
  (if differs (·.maxValue) then
    [(new.maxValue.map ("MAXVALUE " ++ integer ·)).getD "NO MAXVALUE"] else []) ++
  (if differs (·.cache) then [(new.cache.map ("CACHE " ++ integer ·)).getD "NO CACHE"] else []) ++
  (if old.map (·.cycle) ≠ some new.cycle then [if new.cycle then "CYCLE" else "NO CYCLE"]
    else [])

/-- The definition of a user type; there are no enumerations. -/
def createType (s : Statement) (type : TypeDefinition) : Except MigrationError String :=
  match type.variant with
  | .synonym =>
    .ok ("CREATE TYPE " ++ qualified s.id ++ " FROM " ++ type.baseType.getD "nvarchar(max)" ++
      onlyIf type.notNull " NOT NULL")
  | .composite =>
    .ok ("CREATE TYPE " ++ qualified s.id ++ " AS TABLE (\n" ++
      Text.join ",\n"
        (type.attributes.map fun part => "\t" ++ quote part.name ++ " " ++ part.dataType) ++ "\n)")
  | .enum => unsupported .type

/-- The statement that defines an object, without its owner and comment. -/
def define? (s : Statement) (children : List Statement) (detached : List ObjectId) :
    Except MigrationError (Option String) :=
  match s.definition with
  | .database => .ok none
  | .schema _ => .ok (some ("CREATE SCHEMA " ++ qualified s.id))
  | .role _ => .ok (some ("CREATE ROLE " ++ qualified s.id))
  | .table table => .ok (some (createTable s table children detached))
  | .column column =>
    .ok (some ("ALTER TABLE " ++ owningTable s.id ++ " ADD " ++ columnClause s.id column))
  | .constraint constraint =>
    .ok (some ("ALTER TABLE " ++ owningTable s.id ++ " ADD CONSTRAINT " ++ quote s.name ++ " " ++
      constraintClause .msSql constraint))
  | .index index => .ok (some (createIndex s index))
  | .view _ | .function _ | .procedure _ | .trigger _ => .ok ((module? s).map ("CREATE" ++ ·))
  | .sequence sequence =>
    .ok (some ("CREATE SEQUENCE " ++ qualified s.id ++
      String.join ((sequenceClauses none sequence).map (" " ++ ·))))
  | .type type => (createType s type).map some
  | .policy _ => unsupported .policy

/-- The comments on the columns of a table. -/
def columnComments (s : Statement) (children : List Statement) : List String :=
  match s.definition with
  | .table _ => (children.filter (·.kind = .column)).filterMap (commentStatement? none)
  | _ => []

/-- The statements that create an object. -/
def create (s : Statement) (snapshot : Snapshot) (detached : List ObjectId) :
    Except MigrationError (List String) := do
  if !Dialect.msSql.supports s.kind then unsupported s.kind
  else
    let children := snapshot.children s.id
    match ← define? s children detached with
    | none => return []
    | some definition =>
      return definition :: (ownerStatement? s).toList ++ (commentStatement? none s).toList ++
        columnComments s children

/-- The statements that drop an object. -/
def drop (s : Statement) : Except MigrationError (List String) :=
  if !Dialect.msSql.supports s.kind then unsupported s.kind
  else
    let name := qualified s.id
    match s.definition with
    | .database => .ok []
    | .column column =>
      .ok ((if column.default.isSome then [dropDefault s.id] else []) ++
        ["ALTER TABLE " ++ owningTable s.id ++ " DROP COLUMN " ++ name])
    | .constraint _ => .ok ["ALTER TABLE " ++ owningTable s.id ++ " DROP CONSTRAINT " ++ name]
    | .index _ => .ok ["DROP INDEX " ++ name ++ " ON " ++ owningTable s.id]
    | .trigger _ => .ok ["DROP TRIGGER " ++ quote (s.id.schemaName?.getD "dbo") ++ "." ++ name]
    | definition => .ok ["DROP " ++ definition.kind.keyword ++ " " ++ name]

/-- The statement that checks a module anew after what it uses has changed. -/
def refresh? (s : Statement) : Option String :=
  match s.kind with
  | .view | .function | .procedure =>
    some ("EXEC sys.sp_refreshsqlmodule " ++ nationalLiteral (qualified s.id))
  | .trigger => some ("EXEC sys.sp_refreshsqlmodule " ++ nationalLiteral (triggerName s.id))
  | _ => none

end SchemaMigration.Ddl.MsSql
