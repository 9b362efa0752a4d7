import SchemaMigration.Object.Kind
import SchemaMigration.Json.Codec

/-!
# SQL dialects

The three database systems that schemas are described for, and which kinds of objects each of
them has.
-/

namespace SchemaMigration

/-- A database system. -/
inductive Dialect where
  | postgres
  | msSql
  | clickHouse
  deriving DecidableEq, Repr, Inhabited

namespace Dialect

/-- The name that messages show. -/
def display : Dialect → String
  | postgres => "PostgreSQL"
  | msSql => "MS SQL"
  | clickHouse => "ClickHouse"

/-- The word that documents use. -/
def word : Dialect → String
  | postgres => "postgres"
  | msSql => "mssql"
  | clickHouse => "clickhouse"

/-- The words that documents may use. -/
def words : List (String × Dialect) :=
  [("pg", postgres), ("postgres", postgres), ("postgresql", postgres), ("ms", msSql),
    ("mssql", msSql), ("ch", clickHouse), ("clickhouse", clickHouse)]

/-- Dialects by their words. -/
def codec : Codec Dialect := .choice word words (words.map (·.1))

/-- Whether the dialect has objects of the given kind. -/
def supports : Dialect → ObjectKind → Bool
  | postgres, _ => true
  | msSql, kind => kind != .policy
  | clickHouse, kind =>
    match kind with
    | .sequence | .trigger | .type | .procedure | .policy => false
    | _ => true

end Dialect

end SchemaMigration
