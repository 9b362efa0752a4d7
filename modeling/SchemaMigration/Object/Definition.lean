import SchemaMigration.Object.Id

/-!
# Definitions of schema objects

`Definition` is what is particular to an object of each kind. Its name, owner and comment and its
place in the tree are kept outside, with the object itself.
-/

namespace SchemaMigration

/-- A schema; ClickHouse databases may name an engine. -/
structure SchemaDefinition where
  engine : Option String := none
  deriving DecidableEq, Repr, Inhabited

/-- A role with its attributes, or its settings in ClickHouse. -/
structure RoleDefinition where
  options : List String := []
  deriving DecidableEq, Repr, Inhabited

/-- A table without its columns. The storage parameters are sorted by name; `tablespace` is a
filegroup or partition scheme in MS SQL. -/
structure TableDefinition where
  options : List (String × String) := []
  tablespace : Option String := none
  unlogged : Bool := false
  partitionBy : Option String := none
  engine : Option String := none
  orderBy : Option String := none
  ttl : Option String := none
  deriving DecidableEq, Repr, Inhabited

/-- A column of a table. -/
structure ColumnDefinition where
  dataType : String := ""
  notNull : Bool := false
  default : Option String := none
  collation : Option String := none
  deriving DecidableEq, Repr, Inhabited

/-- The four kinds of table constraints. -/
inductive ConstraintType where
  | primaryKey
  | unique
  | check
  | foreignKey
  deriving DecidableEq, Repr, Inhabited

/-- What a foreign key refers to. -/
structure ForeignKey where
  schema : String := ""
  table : String := ""
  columns : List String := []
  onDelete : Option String := none
  onUpdate : Option String := none
  deriving DecidableEq, Repr, Inhabited

/-- A constraint of a table. -/
structure ConstraintDefinition where
  type : ConstraintType := .primaryKey
  columns : List String := []
  expression : Option String := none
  references : Option ForeignKey := none
  deriving DecidableEq, Repr, Inhabited

/-- An index; its keys are columns or expressions. `method` is the access method in PostgreSQL,
the clustering in MS SQL and the index type in ClickHouse. -/
structure IndexDefinition where
  columns : List String := []
  unique : Bool := false
  method : Option String := none
  predicate : Option String := none
  tablespace : Option String := none
  granularity : Option UInt32 := none
  deriving DecidableEq, Repr, Inhabited

/-- A view with its query and, if they are given, its column names. -/
structure ViewDefinition where
  query : String := ""
  materialized : Bool := false
  columns : List String := []
  engine : Option String := none
  deriving DecidableEq, Repr, Inhabited

/-- One argument of a routine. -/
structure RoutineArgument where
  name : Option String := none
  dataType : String := ""
  default : Option String := none
  deriving DecidableEq, Repr, Inhabited

/-- A function or procedure. -/
structure RoutineDefinition where
  arguments : List RoutineArgument := []
  returns : Option String := none
  language : Option String := none
  volatility : Option String := none
  body : String := ""
  deriving DecidableEq, Repr, Inhabited

/-- A trigger: PostgreSQL names a function, MS SQL holds a body. -/
structure TriggerDefinition where
  timing : String := ""
  events : List String := []
  forEachRow : Bool := false
  condition : Option String := none
  function : Option String := none
  body : Option String := none
  deriving DecidableEq, Repr, Inhabited

/-- A sequence. -/
structure SequenceDefinition where
  dataType : Option String := none
  start : Option Int64 := none
  increment : Option Int64 := none
  minValue : Option Int64 := none
  maxValue : Option Int64 := none
  cache : Option Int64 := none
  cycle : Bool := false
  deriving DecidableEq, Repr, Inhabited

/-- The three kinds of user types; an alias is a domain in PostgreSQL. -/
inductive TypeVariant where
  | enum
  | composite
  | synonym
  deriving DecidableEq, Repr, Inhabited

/-- One attribute of a composite type. -/
structure TypeAttribute where
  name : String := ""
  dataType : String := ""
  deriving DecidableEq, Repr, Inhabited

/-- A user type. -/
structure TypeDefinition where
  variant : TypeVariant := .enum
  labels : List String := []
  attributes : List TypeAttribute := []
  baseType : Option String := none
  notNull : Bool := false
  deriving DecidableEq, Repr, Inhabited

/-- A row security policy. -/
structure PolicyDefinition where
  command : String := "ALL"
  permissive : Bool := true
  roles : List String := []
  usingCondition : Option String := none
  withCheck : Option String := none
  deriving DecidableEq, Repr, Inhabited

/-- The definition of a schema object, by kind. -/
inductive Definition where
  | database
  | schema (definition : SchemaDefinition)
  | role (definition : RoleDefinition)
  | table (definition : TableDefinition)
  | column (definition : ColumnDefinition)
  | constraint (definition : ConstraintDefinition)
  | index (definition : IndexDefinition)
  | view (definition : ViewDefinition)
  | function (definition : RoutineDefinition)
  | procedure (definition : RoutineDefinition)
  | trigger (definition : TriggerDefinition)
  | sequence (definition : SequenceDefinition)
  | type (definition : TypeDefinition)
  | policy (definition : PolicyDefinition)
  deriving DecidableEq, Repr, Inhabited

namespace RoutineDefinition

/-- The types of the arguments, as written. -/
def argumentTypes (routine : RoutineDefinition) : List String :=
  routine.arguments.map (·.dataType)

end RoutineDefinition

namespace Definition

/-- The kind of object that a definition defines. -/
def kind : Definition → ObjectKind
  | database => .database
  | schema _ => .schema
  | role _ => .role
  | table _ => .table
  | column _ => .column
  | constraint _ => .constraint
  | index _ => .index
  | view _ => .view
  | function _ => .function
  | procedure _ => .procedure
  | trigger _ => .trigger
  | sequence _ => .sequence
  | type _ => .type
  | policy _ => .policy

/-- The last segment of the identity of an object with this definition: routines append the
types of their arguments to their name. -/
def identityName (definition : Definition) (name : String) : String :=
  match definition with
  | function routine | procedure routine => signature name routine.argumentTypes
  | _ => name

end Definition

end SchemaMigration
