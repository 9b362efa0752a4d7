import SchemaMigration.Snapshot.NameLookup
import SchemaMigration.Snapshot.Statement
import SchemaMigration.Sql.References
import SchemaMigration.Sql.SequenceUse

/-!
# Dependencies of statements

A statement depends on what its definition mentions: the types of columns, arguments and
attributes, the sequences of defaults, the columns of constraints and indexes and the targets of
foreign keys, the functions of triggers, and whatever the query of a view or the body of an SQL
routine refers to. Names that stand for no statement of the snapshot are passed over.
-/

namespace SchemaMigration

namespace Statements

/-- The identities of all statements, in order. -/
def ids (statements : List Statement) : List ObjectId := statements.map (·.id)

end Statements

namespace Dependency

/-- The kinds of objects that rows are selected from. -/
def relationKinds : List ObjectKind := [.table, .view]

/-! ## References of queries -/

/-- The statements that the references of `owner` stand for: first its relations, then the columns
of those selected as a whole, then the columns it names, then functions. -/
def ofReferences (statements : List Statement) (owner : ObjectId) (references : Sql.References) :
    List ObjectId :=
  let find (kinds : List ObjectKind) (parts : List String) : Option ObjectId :=
    NameLookup.resolve? (Statements.ids statements) kinds owner.schemaName? (parts.map unquoted)
  let relations := references.relations.filterMap (find relationKinds)
  let wildcards := references.wildcards.filterMap (find relationKinds)
  let columns (name : String) : List ObjectId :=
    relations.flatMap fun relation =>
      ((Statements.columns statements relation).filter
        fun column => Text.sameIgnoringCase column.name name).map (·.id)
  let all := relations ++
    wildcards.flatMap (fun relation => (Statements.columns statements relation).map (·.id)) ++
    references.columns.flatMap columns ++
    references.functions.filterMap (find [.function])
  (all.filter (· ≠ owner)).eraseDups

/-! ## What definitions mention -/

/-- The name of a data type without array brackets and arguments. -/
def typeName (dataType : String) : List String :=
  Text.splitAt '.' (Text.trim (Text.before '(' (Text.trimSuffixes "[]" (Text.trim dataType))))

/-- The key of an index without its direction. -/
def keyColumn (key : String) : String :=
  Text.trimSuffixes " asc" (Text.trimSuffixes " desc"
    (Text.trimSuffixes " ASC" (Text.trimSuffixes " DESC" (Text.trim key))))

/-- The table that a foreign key refers to. -/
def foreignTable? : Definition → Option ObjectId
  | .constraint definition => definition.references.map fun key => .table key.schema key.table
  | _ => none

variable (statements : List Statement) (s : Statement)

/-- The object that the parts of a name in a statement's definition stand for. -/
def named? (kind : ObjectKind) (parts : List String) : Option ObjectId :=
  NameLookup.resolve? (Statements.ids statements) [kind] s.id.schemaName? parts

/-- The user type of a data type. -/
def typeOf? (dataType : String) : Option ObjectId := named? statements s .type (typeName dataType)

/-- The column of a table under a name that may be quoted. -/
def columnOf? (table : ObjectId) (name : String) : Option ObjectId :=
  let id := table.child .column (unquoted name)
  if Statements.has statements id then some id else none

/-- What the definition of a statement mentions. -/
def ofDefinition : List ObjectId :=
  match s.definition with
  | .column definition =>
    (typeOf? statements s definition.dataType).toList ++
      ((definition.default.map Sql.sequenceNames).getD []).filterMap fun name =>
        named? statements s .sequence ((Text.splitAt '.' name).map unquoted)
  | .constraint definition =>
    (match s.parent with
      | some table => definition.columns.filterMap (columnOf? statements table)
      | none => []) ++
    match definition.references with
    | some key =>
      let target := ObjectId.table key.schema key.table
      key.columns.filterMap (columnOf? statements target) ++ [target]
    | none => []
  | .index definition =>
    match s.parent with
    | some table =>
      definition.columns.filterMap fun key => columnOf? statements table (keyColumn key)
    | none => []
  | .trigger definition =>
    match definition.function with
    | some function =>
      (named? statements s .function (Text.splitAt '.' (Text.before '(' function))).toList
    | none => []
  | .function definition | .procedure definition =>
    definition.arguments.filterMap (fun argument => typeOf? statements s argument.dataType) ++
      definition.returns.toList.filterMap (typeOf? statements s)
  | .type definition =>
    definition.attributes.filterMap (fun part => typeOf? statements s part.dataType) ++
      definition.baseType.toList.filterMap (typeOf? statements s)
  | _ => []

end Dependency

end SchemaMigration
