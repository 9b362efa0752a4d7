import SchemaMigration.Ddl.Clause
import SchemaMigration.Snapshot.Basic

/-!
# Creating and dropping objects in PostgreSQL

Tables are created with their columns and with every constraint that is not detached. Owners and
comments are set by statements of their own.
-/

namespace SchemaMigration.Ddl.Postgres

/-- An identifier as it stands in a statement. -/
def quote (ident : String) : String := Dialect.postgres.quote ident

/-- The qualified name of an object. -/
def qualified (id : ObjectId) : String := Dialect.postgres.qualified id

/-- The qualified name of the table that owns a sub-element. -/
def owningTable (id : ObjectId) : String := Dialect.postgres.owningTable id

/-- A column as it stands in the definition of a table. -/
def columnClause (name : String) (column : ColumnDefinition) : String :=
  quote name ++ " " ++ column.dataType ++ optional " COLLATE " (column.collation.map quote) ++
    optional " DEFAULT " column.default ++ onlyIf column.notNull " NOT NULL"

/-- A name with the schema of the table that the object belongs to. -/
def inSchema (id : ObjectId) : String :=
  match id.path with
  | schema :: _ :: _ => Dialect.postgres.dotted schema id.name
  | _ => qualified id

/-- A routine with its argument types. -/
def routineSignature (id : ObjectId) (routine : RoutineDefinition) : String :=
  qualified id ++ "(" ++ argumentTypes routine ++ ")"

/-- A sub-element and its table. -/
def onTable (id : ObjectId) : String := quote id.name ++ " ON " ++ owningTable id

/-- What statements about an object as a whole name it by. -/
def target? (s : Statement) : Option String :=
  let id := s.id
  match s.definition with
  | .database => none
  | .schema _ => some ("SCHEMA " ++ qualified id)
  | .role _ => some ("ROLE " ++ qualified id)
  | .table _ => some ("TABLE " ++ qualified id)
  | .column _ => some ("COLUMN " ++ owningTable id ++ "." ++ quote id.name)
  | .constraint _ => some ("CONSTRAINT " ++ onTable id)
  | .index _ => some ("INDEX " ++ inSchema id)
  | .view view =>
    some ((if view.materialized then "MATERIALIZED VIEW " else "VIEW ") ++ qualified id)
  | .function routine => some ("FUNCTION " ++ routineSignature id routine)
  | .procedure routine => some ("PROCEDURE " ++ routineSignature id routine)
  | .trigger _ => some ("TRIGGER " ++ onTable id)
  | .sequence _ => some ("SEQUENCE " ++ qualified id)
  | .type type => some ((if type.variant = .synonym then "DOMAIN " else "TYPE ") ++ qualified id)
  | .policy _ => some ("POLICY " ++ onTable id)

/-- The kinds of objects that a role owns. -/
def isOwned : ObjectKind → Bool
  | .schema | .table | .view | .sequence | .function | .procedure | .type => true
  | _ => false

/-- The statement that sets the owner, if there is one. -/
def ownerStatement? (s : Statement) : Option String := do
  let owner ← s.owner
  let target ← target? s
  if isOwned s.kind then some ("ALTER " ++ target ++ " OWNER TO " ++ quote owner) else none

/-- The statement that sets or removes the comment. -/
def commentStatement? (s : Statement) : Option String :=
  (target? s).map fun target =>
    "COMMENT ON " ++ target ++ " IS " ++ ((s.comment.map literal).getD "NULL")

/-- The statement that sets the comment, if there is one. -/
def presentComment? (s : Statement) : Option String :=
  if s.comment.isSome then commentStatement? s else none

/-- A child of a table as it stands in the table's definition. -/
def tableLine? (detached : List ObjectId) (child : Statement) : Option String :=
  match child.definition with
  | .column column => some ("\t" ++ columnClause child.name column)
  | .constraint constraint =>
    if detached.contains child.id then none
    else
      some ("\tCONSTRAINT " ++ quote child.name ++ " " ++ constraintClause .postgres constraint)
  | _ => none

/-- The definition of a table with the given lines. -/
def tableText (s : Statement) (table : TableDefinition) (lines : List String) : String :=
  "CREATE " ++ onlyIf table.unlogged "UNLOGGED " ++ "TABLE " ++ qualified s.id ++ " (" ++
    (if lines.isEmpty then ")" else "\n" ++ Text.join ",\n" lines ++ "\n)") ++
    optional "\nPARTITION BY " table.partitionBy ++
    onlyIf (!table.options.isEmpty)
      ("\nWITH (" ++ Text.commaList (assignments table.options) ++ ")") ++
    optional "\nTABLESPACE " (table.tablespace.map quote)

/-- The definition of a table. -/
def createTable (s : Statement) (table : TableDefinition) (children : List Statement)
    (detached : List ObjectId) : String :=
  tableText s table (children.filterMap (tableLine? detached))

/-- An argument of a routine. -/
def argumentClause (argument : RoutineArgument) : String :=
  (match argument.name with
    | some name => quote name ++ " " ++ argument.dataType
    | none => argument.dataType) ++ optional " DEFAULT " argument.default

/-- The mark around the body of a routine. It has a name where the body holds a plain one. -/
def bodyMark (body : String) : String :=
  if Text.occursIn ['$', '$'] body.toList then "$function$" else "$$"

/-- The definition of a routine, which takes the place of an earlier one. -/
def createRoutine (s : Statement) (routine : RoutineDefinition) : String :=
  let mark := bodyMark routine.body
  let procedure := s.kind = .procedure
  "CREATE OR REPLACE " ++ (if procedure then "PROCEDURE " else "FUNCTION ") ++ qualified s.id ++
    "(" ++ Text.commaList (routine.arguments.map argumentClause) ++ ")" ++
    onlyIf (!procedure) ("\n    RETURNS " ++ routine.returns.getD "void") ++
    "\n    LANGUAGE " ++ routine.language.getD "sql" ++
    optional "\n    " (routine.volatility.map Text.upperAscii) ++
    "\nAS " ++ mark ++ routine.body ++ mark

/-- The definition of an index. -/
def createIndex (s : Statement) (index : IndexDefinition) : String :=
  "CREATE " ++ onlyIf index.unique "UNIQUE " ++ "INDEX " ++ onTable s.id ++
    optional " USING " index.method ++ " (" ++ Text.commaList index.columns ++ ")" ++
    optional " TABLESPACE " (index.tablespace.map quote) ++ optional " WHERE " index.predicate

/-- The definition of a view. -/
def createView (s : Statement) (view : ViewDefinition) : String :=
  "CREATE " ++ onlyIf view.materialized "MATERIALIZED " ++ "VIEW " ++ qualified s.id ++
    onlyIf (!view.columns.isEmpty) (" (" ++ Dialect.postgres.quoteList view.columns ++ ")") ++
    " AS\n" ++ viewQuery view.query

/-- The definition of a trigger. -/
def createTrigger (s : Statement) (trigger : TriggerDefinition) : String :=
  "CREATE TRIGGER " ++ quote s.name ++ " " ++ trigger.timing ++ " " ++
    Text.join " OR " trigger.events ++ " ON " ++ owningTable s.id ++ " FOR EACH " ++
    (if trigger.forEachRow then "ROW" else "STATEMENT") ++
    optional " WHEN (" (trigger.condition.map (· ++ ")")) ++
    match trigger.function with
    | some function =>
      " EXECUTE FUNCTION " ++ Text.join "." ((Text.splitAt '.' function).map quote) ++ "()"
    | none => optional " " trigger.body

/-- The clauses of a sequence that differ from those of an old one, or all of them. -/
def sequenceClauses (old : Option SequenceDefinition) (new : SequenceDefinition) : List String :=
  let differs (field : SequenceDefinition → Option Int64) : Bool :=
    old.map field ≠ some (field new)
  (if old.map (·.dataType) ≠ some new.dataType then (new.dataType.map ("AS " ++ ·)).toList
    else []) ++
  (if differs (·.start) then (new.start.map ("START WITH " ++ integer ·)).toList else []) ++
  (if differs (·.increment) then ["INCREMENT BY " ++ integer (new.increment.getD 1)] else []) ++
  (if differs (·.minValue) then
    [(new.minValue.map ("MINVALUE " ++ integer ·)).getD "NO MINVALUE"] else []) ++
  (if differs (·.maxValue) then
    [(new.maxValue.map ("MAXVALUE " ++ integer ·)).getD "NO MAXVALUE"] else []) ++
  (if differs (·.cache) then ["CACHE " ++ integer (new.cache.getD 1)] else []) ++
  (if old.map (·.cycle) ≠ some new.cycle then [if new.cycle then "CYCLE" else "NO CYCLE"]
    else [])

/-- The definition of a sequence, in which clauses that only say what is not are left out. -/
def createSequence (s : Statement) (sequence : SequenceDefinition) : String :=
  let clauses := (sequenceClauses none sequence).filter fun clause =>
    ! ["NO MINVALUE", "NO MAXVALUE", "NO CYCLE"].contains clause
  "CREATE SEQUENCE " ++ qualified s.id ++ String.join (clauses.map ("\n\t" ++ ·))

/-- The definition of a user type. -/
def createType (s : Statement) (type : TypeDefinition) : String :=
  let name := qualified s.id
  match type.variant with
  | .enum =>
    "CREATE TYPE " ++ name ++ " AS ENUM (" ++ Text.commaList (type.labels.map literal) ++ ")"
  | .composite =>
    "CREATE TYPE " ++ name ++ " AS (" ++
      Text.commaList (type.attributes.map fun part => quote part.name ++ " " ++ part.dataType) ++
      ")"
  | .synonym =>
    "CREATE DOMAIN " ++ name ++ " AS " ++ type.baseType.getD "text" ++
      onlyIf type.notNull " NOT NULL"

/-- The roles that a policy applies to. -/
def policyRoles (roles : List String) : String :=
  if roles.isEmpty then "PUBLIC" else Dialect.postgres.quoteList roles

/-- The definition of a policy. -/
def createPolicy (s : Statement) (policy : PolicyDefinition) : String :=
  "CREATE POLICY " ++ onTable s.id ++
    "\n\tAS " ++ (if policy.permissive then "PERMISSIVE" else "RESTRICTIVE") ++
    "\n\tFOR " ++ policy.command ++ "\n\tTO " ++ policyRoles policy.roles ++
    optional "\n\tUSING (" (policy.usingCondition.map (· ++ ")")) ++
    optional "\n\tWITH CHECK (" (policy.withCheck.map (· ++ ")"))

/-- The statement that defines an object, without its owner and comment. -/
def define? (s : Statement) (children : List Statement) (detached : List ObjectId) :
    Option String :=
  match s.definition with
  | .database => none
  | .schema _ => some ("CREATE SCHEMA " ++ qualified s.id)
  | .role role =>
    some ("CREATE ROLE " ++ qualified s.id ++
      onlyIf (!role.options.isEmpty) (" WITH " ++ Text.join " " role.options))
  | .table table => some (createTable s table children detached)
  | .column column =>
    some ("ALTER TABLE " ++ owningTable s.id ++ " ADD COLUMN " ++ columnClause s.name column)
  | .constraint constraint =>
    some ("ALTER TABLE " ++ owningTable s.id ++ " ADD CONSTRAINT " ++ quote s.name ++ " " ++
      constraintClause .postgres constraint)
  | .index index => some (createIndex s index)
  | .view view => some (createView s view)
  | .function routine | .procedure routine => some (createRoutine s routine)
  | .trigger trigger => some (createTrigger s trigger)
  | .sequence sequence => some (createSequence s sequence)
  | .type type => some (createType s type)
  | .policy policy => some (createPolicy s policy)

/-- The comments on what the definition of a table holds. -/
def innerComments (s : Statement) (children : List Statement) (detached : List ObjectId) :
    List String :=
  match s.definition with
  | .table _ =>
    (children.filter fun child => (tableLine? detached child).isSome).filterMap presentComment?
  | _ => []

/-- The statements that create an object. -/
def create (s : Statement) (snapshot : Snapshot) (detached : List ObjectId) : List String :=
  let children := snapshot.children s.id
  match define? s children detached with
  | none => []
  | some definition =>
    definition :: (ownerStatement? s).toList ++ (presentComment? s).toList ++
      innerComments s children detached

/-- The statements that drop an object. -/
def drop (s : Statement) : List String :=
  match s.definition with
  | .column _ => ["ALTER TABLE " ++ owningTable s.id ++ " DROP COLUMN " ++ quote s.name]
  | .constraint _ => ["ALTER TABLE " ++ owningTable s.id ++ " DROP CONSTRAINT " ++ quote s.name]
  | _ => ((target? s).map ("DROP " ++ ·)).toList

end SchemaMigration.Ddl.Postgres
