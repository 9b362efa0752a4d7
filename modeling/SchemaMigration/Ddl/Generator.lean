import SchemaMigration.Ddl.ClickHouse.Alter
import SchemaMigration.Ddl.MsSql.Alter
import SchemaMigration.Ddl.Postgres.Alter

/-!
# Statements for every dialect

The statements that create, drop, alter and refresh an object, by the dialect of its snapshot.
-/

namespace SchemaMigration.Dialect

/-- The statements that create an object of a snapshot. Constraints that are detached do not stand
in the definition of their table. -/
def create (dialect : Dialect) (s : Statement) (snapshot : Snapshot) (detached : List ObjectId) :
    Except MigrationError (List String) :=
  match dialect with
  | postgres => .ok (Ddl.Postgres.create s snapshot detached)
  | msSql => Ddl.MsSql.create s snapshot detached
  | clickHouse => Ddl.ClickHouse.create s snapshot detached

/-- The statements that drop an object. -/
def drop (dialect : Dialect) (s : Statement) : Except MigrationError (List String) :=
  match dialect with
  | postgres => .ok (Ddl.Postgres.drop s)
  | msSql => Ddl.MsSql.drop s
  | clickHouse => Ddl.ClickHouse.drop s

/-- How an object is brought from an old definition to a new one. -/
def alter (dialect : Dialect) (old new : Statement) : Except MigrationError Alteration :=
  match dialect with
  | postgres => .ok (Ddl.Postgres.alter old new)
  | msSql => Ddl.MsSql.alter old new
  | clickHouse => Ddl.ClickHouse.alter old new

/-- The statement that refreshes an object in place after what it uses has changed, where the
dialect has one. -/
def refresh? (dialect : Dialect) (s : Statement) : Option String :=
  match dialect with
  | msSql => Ddl.MsSql.refresh? s
  | _ => none

end SchemaMigration.Dialect
