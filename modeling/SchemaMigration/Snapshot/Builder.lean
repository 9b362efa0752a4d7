import SchemaMigration.Snapshot.Basic
import SchemaMigration.Snapshot.Dependency

/-!
# Building snapshots

Statements are added under their parents, starting from the database. The queries of views and the
bodies of SQL routines wait for analysis, which finds the dependencies they imply. `finish`
refuses a tree with waiting queries or with stated dependencies that lead nowhere, adds what
definitions imply, and takes the fingerprints.
-/

namespace SchemaMigration

/-- A query that waits for analysis. -/
structure Task where
  id : ObjectId
  sql : String
  deriving DecidableEq, Repr

/-- A snapshot that is being built, with the reader of the texts in it. -/
structure Builder where
  dialect : Dialect
  read : Sql.Reader
  statements : List Statement
  tasks : List Task := []

/-- The text in a definition that is analysed: the query of a view, the body of an SQL routine. -/
def Definition.query? : Definition → Option String
  | .view definition => some definition.query
  | .function definition | .procedure definition =>
    if (definition.language.map (Text.sameIgnoringCase · "sql")).getD false then
      some definition.body
    else none
  | _ => none

namespace Builder

/-- A builder with nothing but the database. -/
def new (dialect : Dialect) (read : Sql.Reader := Sql.read) : Builder where
  dialect
  read
  statements := [{ id := .database, parent := none, definition := .database }]

/-- The statement of an identity. -/
def get? (b : Builder) (id : ObjectId) : Option Statement := Statements.get? b.statements id

/-- Adds a statement under a parent and gives its identity. -/
def add (b : Builder) (parent : ObjectId) (name : String) (definition : Definition) :
    Except MigrationError (ObjectId × Builder) :=
  let id := parent.child definition.kind (definition.identityName name)
  match b.get? parent with
  | none => .error (.missingDependency id parent)
  | some p =>
    if !definition.kind.canBeUnder p.kind then .error (.invalidHierarchy parent id)
    else if Statements.has b.statements id then .error (.duplicateObject id)
    else
      let statements := Statements.modify b.statements parent fun p =>
        { p with children := p.children ++ [id] }
      let tasks := definition.query?.toList.map (Task.mk id)
      .ok (id, { b with
        statements := statements ++ [{ id, parent := some parent, definition }]
        tasks := b.tasks ++ tasks })

/-- Changes the statement of an identity, which has to be there. -/
def modify (b : Builder) (id : ObjectId) (change : Statement → Statement) :
    Except MigrationError Builder :=
  if Statements.has b.statements id then
    .ok { b with statements := Statements.modify b.statements id change }
  else .error (.missingDependency .database id)

/-- Sets the role that owns an object. -/
def setOwner (b : Builder) (id : ObjectId) (owner : String) : Except MigrationError Builder :=
  b.modify id fun s => { s with owner := some owner }

/-- Sets the comment on an object. -/
def setComment (b : Builder) (id : ObjectId) (comment : String) : Except MigrationError Builder :=
  b.modify id fun s => { s with comment := some comment }

/-- States a dependency. -/
def depend (b : Builder) (id dependency : ObjectId) : Except MigrationError Builder :=
  b.modify id (·.state dependency)

/-- The references that a task finds. -/
def analyse (b : Builder) (task : Task) : ObjectId × Sql.References :=
  (task.id, .ofText b.read b.dialect task.sql)

/-- Adds the dependencies that finished tasks imply. The order in which they finished does not
matter, since they are taken in the order of their identities. -/
def settle (b : Builder) (finished : List (ObjectId × Sql.References)) : Builder :=
  let sorted := finished.mergeSort fun a b => a.1.ble b.1
  let statements := sorted.foldl (fun statements (id, references) =>
    Statements.modify statements id
      (·.addDependencies (Dependency.ofReferences b.statements id references))) b.statements
  { b with statements, tasks := [] }

/-- Runs every waiting task. -/
def drain (b : Builder) : Builder := b.settle (b.tasks.map b.analyse)

/-- The first dependency that has to be there and is not: of a statement's stated ones or of its
foreign key. -/
def missing? (b : Builder) : Option (ObjectId × ObjectId) :=
  b.statements.findSome? fun s =>
    ((s.stated ++ (Dependency.foreignTable? s.definition).toList).find?
      fun dependency => !Statements.has b.statements dependency).map (s.id, ·)

/-- The statements with all their dependencies. -/
def linked (b : Builder) : List Statement :=
  b.statements.map fun s =>
    s.addDependencies (s.stated ++ Dependency.ofDefinition b.statements s)

/-- Finishes a snapshot. -/
def finish (b : Builder) : Except MigrationError Snapshot :=
  if b.tasks.length ≠ 0 then .error (.pendingAnalysis b.tasks.length)
  else
    match b.missing? with
    | some (dependent, dependency) => .error (.missingDependency dependent dependency)
    | none =>
      let statements := b.linked
      .ok { dialect := b.dialect, statements, fingerprints := Fingerprint.table statements }

end Builder

/-- The snapshot of a database without objects. -/
def Snapshot.empty (dialect : Dialect) : Snapshot :=
  let statements := (Builder.new dialect Sql.read).statements
  { dialect, statements, fingerprints := Fingerprint.table statements }

end SchemaMigration
