import SchemaMigration.Ddl.Alteration
import SchemaMigration.Ddl.Postgres.Create

/-!
# Altering objects in PostgreSQL

For each kind of object the difference of two definitions is a list of changes, each of which is
written as a statement or a clause. Where a difference has no such change the object is created
anew.
-/

namespace SchemaMigration.Ddl.Postgres

/-! ## Roles -/

/-- The attributes of roles that the word `NO` in front switches off. -/
def negatableOptions : List String :=
  ["SUPERUSER", "CREATEDB", "CREATEROLE", "INHERIT", "LOGIN", "REPLICATION", "BYPASSRLS"]

/-- A clause that changes an attribute of a role. -/
inductive RoleClause where
  | add (option : String)
  | negate (option : String)
  deriving DecidableEq, Repr

/-- A clause as text. -/
def RoleClause.render : RoleClause → String
  | add option => option
  | negate option => "NO" ++ option

/-- The attributes of a role in capitals, sorted, each once. -/
def roleOptions (role : RoleDefinition) : List String :=
  ((role.options.map fun option => Text.upperAscii (Text.trim option)).eraseDups).mergeSort
    fun a b => (compare a b).isLE

/-- The clauses that change the attributes of a role: first those that are new, then the opposites
of those that are gone, if they have one. -/
def roleClauses? (old new : RoleDefinition) : Option (List RoleClause) :=
  let (before, after) := (roleOptions old, roleOptions new)
  let gone := before.filter fun option => !after.contains option
  if gone.all negatableOptions.contains then
    some ((after.filter fun option => !before.contains option).map RoleClause.add ++
      gone.map RoleClause.negate)
  else none

/-! ## Tables -/

/-- A change of a table. -/
inductive TableChange where
  | tablespace (name : Option String)
  | unlogged (value : Bool)
  | set (options : List (String × String))
  | reset (options : List String)
  deriving DecidableEq, Repr

/-- The tablespace of what names none. -/
def defaultTablespace : String := "pg_default"

/-- A change of a table as it stands behind the table's name. -/
def TableChange.render : TableChange → String
  | tablespace name => "SET TABLESPACE " ++ quote (name.getD defaultTablespace)
  | unlogged value => "SET " ++ (if value then "UNLOGGED" else "LOGGED")
  | set options => "SET (" ++ Text.commaList (assignments options) ++ ")"
  | reset options => "RESET (" ++ Text.commaList options ++ ")"

/-- The changes of a table whose partitioning and engine stay. -/
def tableChanges? (old new : TableDefinition) : Option (List TableChange) :=
  if old.partitionBy = new.partitionBy && old.engine = new.engine && old.orderBy = new.orderBy &&
      old.ttl = new.ttl then
    let set := setOptions old.options new.options
    let gone := goneOptions old.options new.options
    some ((if old.tablespace ≠ new.tablespace then [.tablespace new.tablespace] else []) ++
      (if old.unlogged ≠ new.unlogged then [.unlogged new.unlogged] else []) ++
      (if set.isEmpty then [] else [.set set]) ++ (if gone.isEmpty then [] else [.reset gone]))
  else none

/-! ## Columns -/

/-- A change of a column. -/
inductive ColumnChange where
  /-- A new type and collation; `converts` says that the type differs. -/
  | type (dataType : String) (collation : Option String) (converts : Bool)
  | default (expression : Option String)
  | notNull (value : Bool)
  deriving DecidableEq, Repr

/-- A change of a column as it stands behind the column's name, which is quoted. -/
def ColumnChange.render (column : String) : ColumnChange → String
  | type dataType collation converts =>
    "TYPE " ++ dataType ++ optional " COLLATE " (collation.map quote) ++
      onlyIf converts (" USING " ++ column ++ "::" ++ dataType)
  | default (some expression) => "SET DEFAULT " ++ expression
  | default none => "DROP DEFAULT"
  | notNull value => (if value then "SET" else "DROP") ++ " NOT NULL"

/-- Whether the objects that depend on the column have to be refreshed. -/
def ColumnChange.invalidating : ColumnChange → Bool
  | type .. => true
  | _ => false

/-- The changes of a column. -/
def columnChanges (old new : ColumnDefinition) : List ColumnChange :=
  (if old.dataType ≠ new.dataType ∨ old.collation ≠ new.collation then
    [.type new.dataType new.collation (old.dataType ≠ new.dataType)] else []) ++
  (if old.default ≠ new.default then [.default new.default] else []) ++
  (if old.notNull ≠ new.notNull then [.notNull new.notNull] else [])

/-! ## Indexes -/

/-- The new tablespace of an index that does not differ otherwise; nothing if that stays too. -/
def indexTablespace? (old new : IndexDefinition) : Option (Option (Option String)) :=
  if { old with tablespace := new.tablespace } = new then
    some (if old.tablespace = new.tablespace then none else some new.tablespace)
  else none

/-! ## Enumerations -/

/-- A label that is added to an enumeration, in front of another one or at the end. -/
structure LabelAddition where
  label : String
  before : Option String
  deriving DecidableEq, Repr

/-- An addition as it stands behind the name of the type. -/
def LabelAddition.render (addition : LabelAddition) : String :=
  "ADD VALUE " ++ literal addition.label ++ optional " BEFORE " (addition.before.map literal)

/-- The labels that are not among the old ones, each in front of the next one that is. -/
def addedLabels (old : List String) : List String → List LabelAddition
  | [] => []
  | label :: rest =>
    if old.contains label then addedLabels old rest
    else ⟨label, rest.find? old.contains⟩ :: addedLabels old rest

/-- The additions to an enumeration whose old labels keep their order. -/
def labelAdditions? (old new : List String) : Option (List LabelAddition) :=
  if old.isSublist new then some (addedLabels old new) else none

/-! ## Policies -/

/-- A clause that changes a policy. -/
inductive PolicyClause where
  | roles (roles : List String)
  | condition (expression : String)
  | withCheck (expression : String)
  deriving DecidableEq, Repr

/-- A clause as text. -/
def PolicyClause.render : PolicyClause → String
  | roles names => "TO " ++ policyRoles names
  | condition expression => "USING (" ++ expression ++ ")"
  | withCheck expression => "WITH CHECK (" ++ expression ++ ")"

/-- The clauses that change a policy. Command and mode cannot be changed, and conditions cannot be
removed. -/
def policyClauses? (old new : PolicyDefinition) : Option (List PolicyClause) :=
  if old.command ≠ new.command ∨ old.permissive ≠ new.permissive ∨
      (old.usingCondition.isSome ∧ new.usingCondition.isNone) ∨
      (old.withCheck.isSome ∧ new.withCheck.isNone) then none
  else
    some ((if old.roles ≠ new.roles then [.roles new.roles] else []) ++
      (if old.usingCondition ≠ new.usingCondition then
        (new.usingCondition.map PolicyClause.condition).toList else []) ++
      (if old.withCheck ≠ new.withCheck then (new.withCheck.map PolicyClause.withCheck).toList
        else []))

/-! ## All kinds -/

/-- One statement of several clauses, if there are any. -/
def oneStatement (lead : String) (clauses : List String) : List InPlaceChange :=
  if clauses.isEmpty then [] else [{ sql := lead ++ Text.join " " clauses }]

/-- The statements that bring the definition of an object to the new one; nothing if it has to be
created anew. -/
def definitionChanges? (old : Definition) (s : Statement) : Option (List InPlaceChange) :=
  match old, s.definition with
  | .database, .database => some []
  | .role old, .role new =>
    (roleClauses? old new).map fun clauses =>
      oneStatement ("ALTER ROLE " ++ qualified s.id ++ " WITH ") (clauses.map RoleClause.render)
  | .table old, .table new =>
    (tableChanges? old new).map fun changes =>
      changes.map fun change =>
        { sql := "ALTER TABLE " ++ qualified s.id ++ " " ++ change.render }
  | .column old, .column new =>
    let column := quote s.name
    some ((columnChanges old new).map fun change =>
      { sql := "ALTER TABLE " ++ owningTable s.id ++ " ALTER COLUMN " ++ column ++ " " ++
          change.render column
        invalidating := change.invalidating })
  | .index old, .index new =>
    (indexTablespace? old new).map fun changed =>
      changed.toList.map fun tablespace =>
        { sql := "ALTER INDEX " ++ inSchema s.id ++ " SET TABLESPACE " ++
            quote (tablespace.getD defaultTablespace) }
  | .function old, .function new | .procedure old, .procedure new =>
    if old.returns ≠ new.returns ∨ old.arguments ≠ new.arguments then none
    else if old.body ≠ new.body ∨ old.language ≠ new.language ∨ old.volatility ≠ new.volatility then
      some [{ sql := createRoutine s new }]
    else some []
  | .sequence old, .sequence new =>
    some (oneStatement ("ALTER SEQUENCE " ++ qualified s.id ++ " ")
      (sequenceClauses (some old) new))
  | .type old, .type new =>
    if old.variant = .enum ∧ new.variant = .enum then
      (labelAdditions? old.labels new.labels).map fun additions =>
        additions.map fun addition =>
          { sql := "ALTER TYPE " ++ qualified s.id ++ " " ++ addition.render }
    else if old = new then some []
    else none
  | .policy old, .policy new =>
    (policyClauses? old new).map fun clauses =>
      oneStatement ("ALTER POLICY " ++ onTable s.id ++ " ") (clauses.map PolicyClause.render)
  | .schema old, .schema new => if old = new then some [] else none
  | .constraint old, .constraint new => if old = new then some [] else none
  | .view old, .view new => if old = new then some [] else none
  | .trigger old, .trigger new => if old = new then some [] else none
  | _, _ => none

/-- How a changed object is brought to its new definition, owner and comment. -/
def alter (old new : Statement) : Alteration :=
  .ofChanges? <| (definitionChanges? old.definition new).map fun changes =>
    let owner := if old.owner ≠ new.owner then (ownerStatement? new).toList else []
    let comment := if old.comment ≠ new.comment then (commentStatement? new).toList else []
    changes ++ (owner ++ comment).map (⟨·, false⟩)

end SchemaMigration.Ddl.Postgres
