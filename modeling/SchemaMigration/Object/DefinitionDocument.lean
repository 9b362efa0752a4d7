import SchemaMigration.Object.Definition
import SchemaMigration.Json.Codec

/-!
# Documents of definitions and identities

The layout of each definition as a record, and of a whole definition as a record with its kind in
front. The same layouts serve the documents that are read and the compact text that is hashed.
-/

namespace SchemaMigration

open Codec SchemaMigration.Field

/-- Optional text. -/
def Codec.text? : Codec (Option String) := option string

/-- Lists of texts. -/
def Codec.texts : Codec (List String) := list string

/-- The kinds of objects by their words. -/
def ObjectKind.codec : Codec ObjectKind :=
  choice name (all.map fun kind => (kind.name, kind)) (all.map name)

/-- Identities as records of kind and path. -/
def ObjectId.layout : Layout ObjectId where
  name := "ObjectId"
  blank := .database
  fields :=
    [needed "kind" ObjectKind.codec (·.kind) (fun v r => { r with kind := v }),
      needed "path" texts (·.path) (fun v r => { r with path := v })]

/-- The layout of a schema's definition. -/
def SchemaDefinition.layout : Layout SchemaDefinition where
  name := "SchemaDef"
  blank := {}
  fields := [defaulted "engine" text? (·.engine) (fun v r => { r with engine := v })]

/-- The layout of a role's definition. -/
def RoleDefinition.layout : Layout RoleDefinition where
  name := "RoleDef"
  blank := {}
  fields := [defaulted "options" texts (·.options) (fun v r => { r with options := v })]

/-- The layout of a table's definition. -/
def TableDefinition.layout : Layout TableDefinition where
  name := "TableDef"
  blank := {}
  fields :=
    [defaulted "options" sortedMap (·.options) (fun v r => { r with options := v }),
      defaulted "tablespace" text? (·.tablespace) (fun v r => { r with tablespace := v }),
      defaulted "unlogged" bool (·.unlogged) (fun v r => { r with unlogged := v }),
      defaulted "partition_by" text? (·.partitionBy) (fun v r => { r with partitionBy := v }),
      defaulted "engine" text? (·.engine) (fun v r => { r with engine := v }),
      defaulted "order_by" text? (·.orderBy) (fun v r => { r with orderBy := v }),
      defaulted "ttl" text? (·.ttl) (fun v r => { r with ttl := v })]

/-- The layout of a column's definition. -/
def ColumnDefinition.layout : Layout ColumnDefinition where
  name := "ColumnDef"
  blank := {}
  fields :=
    [defaulted "type" string (·.dataType) (fun v r => { r with dataType := v }),
      defaulted "not_null" bool (·.notNull) (fun v r => { r with notNull := v }),
      defaulted "default" text? (·.default) (fun v r => { r with default := v }),
      defaulted "collation" text? (·.collation) (fun v r => { r with collation := v })]

/-- The word for a type of constraint. -/
def ConstraintType.word : ConstraintType → String
  | primaryKey => "primary_key"
  | unique => "unique"
  | check => "check"
  | foreignKey => "foreign_key"

/-- Every type of constraint. -/
def ConstraintType.all : List ConstraintType := [primaryKey, unique, check, foreignKey]

/-- The types of constraints by their words. -/
def ConstraintType.codec : Codec ConstraintType :=
  choice word (all.map fun type => (type.word, type)) (all.map word)

/-- The layout of a foreign key's target. -/
def ForeignKey.layout : Layout ForeignKey where
  name := "ForeignKeyRef"
  blank := {}
  fields :=
    [needed "schema" string (·.schema) (fun v r => { r with schema := v }),
      needed "table" string (·.table) (fun v r => { r with table := v }),
      defaulted "columns" texts (·.columns) (fun v r => { r with columns := v }),
      defaulted "on_delete" text? (·.onDelete) (fun v r => { r with onDelete := v }),
      defaulted "on_update" text? (·.onUpdate) (fun v r => { r with onUpdate := v })]

/-- The layout of a constraint's definition. -/
def ConstraintDefinition.layout : Layout ConstraintDefinition where
  name := "ConstraintDef"
  blank := {}
  fields :=
    [needed "constraint_type" ConstraintType.codec (·.type) (fun v r => { r with type := v }),
      defaulted "columns" texts (·.columns) (fun v r => { r with columns := v }),
      defaulted "expression" text? (·.expression) (fun v r => { r with expression := v }),
      defaulted "references" (option ForeignKey.layout.codec) (·.references)
        (fun v r => { r with references := v })]

/-- The layout of an index's definition. -/
def IndexDefinition.layout : Layout IndexDefinition where
  name := "IndexDef"
  blank := {}
  fields :=
    [defaulted "columns" texts (·.columns) (fun v r => { r with columns := v }),
      defaulted "unique" bool (·.unique) (fun v r => { r with unique := v }),
      defaulted "method" text? (·.method) (fun v r => { r with method := v }),
      defaulted "predicate" text? (·.predicate) (fun v r => { r with predicate := v }),
      defaulted "tablespace" text? (·.tablespace) (fun v r => { r with tablespace := v }),
      defaulted "granularity" (option uint32) (·.granularity)
        (fun v r => { r with granularity := v })]

/-- The layout of a view's definition. -/
def ViewDefinition.layout : Layout ViewDefinition where
  name := "ViewDef"
  blank := {}
  fields :=
    [defaulted "query" string (·.query) (fun v r => { r with query := v }),
      defaulted "materialized" bool (·.materialized) (fun v r => { r with materialized := v }),
      defaulted "columns" texts (·.columns) (fun v r => { r with columns := v }),
      defaulted "engine" text? (·.engine) (fun v r => { r with engine := v })]

/-- The layout of a routine's argument. -/
def RoutineArgument.layout : Layout RoutineArgument where
  name := "RoutineArg"
  blank := {}
  fields :=
    [defaulted "name" text? (·.name) (fun v r => { r with name := v }),
      needed "type" string (·.dataType) (fun v r => { r with dataType := v }),
      defaulted "default" text? (·.default) (fun v r => { r with default := v })]

/-- The layout of a routine's definition. -/
def RoutineDefinition.layout : Layout RoutineDefinition where
  name := "RoutineDef"
  blank := {}
  fields :=
    [defaulted "arguments" (list RoutineArgument.layout.codec) (·.arguments)
        (fun v r => { r with arguments := v }),
      defaulted "returns" text? (·.returns) (fun v r => { r with returns := v }),
      defaulted "language" text? (·.language) (fun v r => { r with language := v }),
      defaulted "volatility" text? (·.volatility) (fun v r => { r with volatility := v }),
      defaulted "body" string (·.body) (fun v r => { r with body := v })]

/-- The layout of a trigger's definition. -/
def TriggerDefinition.layout : Layout TriggerDefinition where
  name := "TriggerDef"
  blank := {}
  fields :=
    [defaulted "timing" string (·.timing) (fun v r => { r with timing := v }),
      defaulted "events" texts (·.events) (fun v r => { r with events := v }),
      defaulted "for_each_row" bool (·.forEachRow) (fun v r => { r with forEachRow := v }),
      defaulted "condition" text? (·.condition) (fun v r => { r with condition := v }),
      defaulted "function" text? (·.function) (fun v r => { r with function := v }),
      defaulted "body" text? (·.body) (fun v r => { r with body := v })]

/-- The layout of a sequence's definition. -/
def SequenceDefinition.layout : Layout SequenceDefinition where
  name := "SequenceDef"
  blank := {}
  fields :=
    [defaulted "data_type" text? (·.dataType) (fun v r => { r with dataType := v }),
      defaulted "start" (option int64) (·.start) (fun v r => { r with start := v }),
      defaulted "increment" (option int64) (·.increment) (fun v r => { r with increment := v }),
      defaulted "min_value" (option int64) (·.minValue) (fun v r => { r with minValue := v }),
      defaulted "max_value" (option int64) (·.maxValue) (fun v r => { r with maxValue := v }),
      defaulted "cache" (option int64) (·.cache) (fun v r => { r with cache := v }),
      defaulted "cycle" bool (·.cycle) (fun v r => { r with cycle := v })]

/-- The word for a variant of user types. -/
def TypeVariant.word : TypeVariant → String
  | enum => "enum"
  | composite => "composite"
  | synonym => "alias"

/-- Every variant of user types. -/
def TypeVariant.all : List TypeVariant := [enum, composite, synonym]

/-- The variants of user types by their words. -/
def TypeVariant.codec : Codec TypeVariant :=
  choice word (all.map fun variant => (variant.word, variant)) (all.map word)

/-- The layout of an attribute of a composite type. -/
def TypeAttribute.layout : Layout TypeAttribute where
  name := "TypeAttribute"
  blank := {}
  fields :=
    [needed "name" string (·.name) (fun v r => { r with name := v }),
      needed "type" string (·.dataType) (fun v r => { r with dataType := v })]

/-- The layout of a user type's definition. -/
def TypeDefinition.layout : Layout TypeDefinition where
  name := "TypeDef"
  blank := {}
  fields :=
    [defaulted "variant" TypeVariant.codec (·.variant) (fun v r => { r with variant := v }),
      defaulted "labels" texts (·.labels) (fun v r => { r with labels := v }),
      defaulted "attributes" (list TypeAttribute.layout.codec) (·.attributes)
        (fun v r => { r with attributes := v }),
      defaulted "base_type" text? (·.baseType) (fun v r => { r with baseType := v }),
      defaulted "not_null" bool (·.notNull) (fun v r => { r with notNull := v })]

/-- The layout of a policy's definition. -/
def PolicyDefinition.layout : Layout PolicyDefinition where
  name := "PolicyDef"
  blank := {}
  fields :=
    [defaulted "command" string (·.command) (fun v r => { r with command := v }),
      defaulted "permissive" bool (·.permissive) (fun v r => { r with permissive := v }),
      defaulted "roles" texts (·.roles) (fun v r => { r with roles := v }),
      defaulted "using" text? (·.usingCondition)
        (fun v r => { r with usingCondition := v }),
      defaulted "with_check" text? (·.withCheck) (fun v r => { r with withCheck := v })]

namespace Definition

/-- The members of a definition's record, without its kind. -/
def members : Definition → List (String × Json)
  | database => []
  | schema d => d |> SchemaDefinition.layout.members
  | role d => d |> RoleDefinition.layout.members
  | table d => d |> TableDefinition.layout.members
  | column d => d |> ColumnDefinition.layout.members
  | constraint d => d |> ConstraintDefinition.layout.members
  | index d => d |> IndexDefinition.layout.members
  | view d => d |> ViewDefinition.layout.members
  | function d => d |> RoutineDefinition.layout.members
  | procedure d => d |> RoutineDefinition.layout.members
  | trigger d => d |> TriggerDefinition.layout.members
  | sequence d => d |> SequenceDefinition.layout.members
  | type d => d |> TypeDefinition.layout.members
  | policy d => d |> PolicyDefinition.layout.members

/-- Reads the definition of an object of the given kind. -/
def readAs (kind : ObjectKind) (document : Json) : Except DecodeError Definition :=
  match kind with
  | .database =>
    match document with
    | .object .. | .array [] _ => .ok database
    | .array items _ => .error (.invalidLength items.length "0 elements in sequence")
    | other => .error (other.mismatch "unit variant StatementBody::Database")
  | .schema => (SchemaDefinition.layout.codec.read .buffered document).map schema
  | .role => (RoleDefinition.layout.codec.read .buffered document).map role
  | .table => (TableDefinition.layout.codec.read .buffered document).map table
  | .column => (ColumnDefinition.layout.codec.read .buffered document).map column
  | .constraint => (ConstraintDefinition.layout.codec.read .buffered document).map constraint
  | .index => (IndexDefinition.layout.codec.read .buffered document).map index
  | .view => (ViewDefinition.layout.codec.read .buffered document).map view
  | .function => (RoutineDefinition.layout.codec.read .buffered document).map function
  | .procedure => (RoutineDefinition.layout.codec.read .buffered document).map procedure
  | .trigger => (TriggerDefinition.layout.codec.read .buffered document).map trigger
  | .sequence => (SequenceDefinition.layout.codec.read .buffered document).map sequence
  | .type => (TypeDefinition.layout.codec.read .buffered document).map type
  | .policy => (PolicyDefinition.layout.codec.read .buffered document).map policy

/-- Reads the kind of a definition: its word or, in a document that was read before, also its
place among the kinds. -/
def readKind (mode : Mode) : Json → Except DecodeError ObjectKind
  | .string word =>
    match ObjectKind.ofName? word with
    | some kind => .ok kind
    | none => .error (.unknownVariant word (ObjectKind.all.map ObjectKind.name))
  | .number (.integer value) =>
    let document : Json := .number (.integer value)
    if mode = .buffered && 0 ≤ value && fitsWord value then
      match ObjectKind.all[value.toNat]? with
      | some kind => .ok kind
      | none =>
        .error (.invalidValue (.integer value)
          ("variant index 0 <= i < " ++ Nat.repr ObjectKind.all.length))
    else .error (document.mismatch "variant identifier")
  | other => .error (other.mismatch "variant identifier")

/-- Takes the kind out of the members of a definition; the others are kept in order. -/
def splitKind (mode : Mode) :
    Option ObjectKind → List (String × Json) →
      Except DecodeError (Option ObjectKind × List (String × Json))
  | kind, [] => .ok (kind, [])
  | kind, (name, document) :: rest =>
    if name = "kind" then
      match kind with
      | some _ => .error (.duplicateField "kind")
      | none => do splitKind mode (some (← readKind mode document)) rest
    else if document.isUsable then do
      let (kind, others) ← splitKind mode kind rest
      return (kind, (name, document) :: others)
    else .error .malformed

/-- Reads a definition from the members of a record. -/
def ofMembers (mode : Mode) (members : List (String × Json)) (closed : Bool) :
    Except DecodeError Definition := do
  let (kind, others) ← splitKind mode none members
  match closed, kind with
  | false, _ => .error .malformed
  | true, none => .error (.missingField "kind")
  | true, some kind => readAs kind (.record others)

/-- Definitions as records whose first member is the kind. -/
def codec : Codec Definition where
  write definition := .record (("kind", .string definition.kind.name) :: definition.members)
  read
    | mode, .object members closed => ofMembers mode members closed
    | mode, .array items closed =>
      match items with
      | [] => .error (if closed then .missingField "kind" else .malformed)
      | first :: rest => do
        let kind ← readKind mode first
        if closed && Json.allUsable rest then readAs kind (.list rest) else .error .malformed
    | _, .refused _ => .error .malformed
    | _, other => .error (other.mismatch "internally tagged enum StatementBody")

/-- The compact text of a definition. -/
def text (definition : Definition) : String := (codec.write definition).print

end Definition

end SchemaMigration
