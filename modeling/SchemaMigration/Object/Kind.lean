import SchemaMigration.Text.Blank
import SchemaMigration.Text.AsciiCase

/-!
# Kinds of schema objects

A schema is a tree: the database owns schemas and roles, schemas own tables, views, routines,
sequences and types, and tables own their columns, constraints, indexes, triggers and policies.
`ObjectKind` names these kinds, and `ObjectKind.canBeUnder` states which kind may own which.
-/

namespace SchemaMigration

/-- The closed set of object kinds, in the order in which objects are sorted. -/
inductive ObjectKind where
  | database
  | schema
  | role
  | table
  | column
  | constraint
  | index
  | view
  | function
  | procedure
  | trigger
  | sequence
  | type
  | policy
  deriving DecidableEq, Repr, Inhabited, Hashable

namespace ObjectKind

/-- Every kind, in sorting order. -/
def all : List ObjectKind :=
  [database, schema, role, table, column, constraint, index, view, function, procedure, trigger,
    sequence, type, policy]

/-- The place of a kind in the sorting order. -/
def rank : ObjectKind → Nat
  | database => 0
  | schema => 1
  | role => 2
  | table => 3
  | column => 4
  | constraint => 5
  | index => 6
  | view => 7
  | function => 8
  | procedure => 9
  | trigger => 10
  | sequence => 11
  | type => 12
  | policy => 13

/-- The word for a kind in data definition statements. -/
def keyword : ObjectKind → String
  | database => "DATABASE"
  | schema => "SCHEMA"
  | role => "ROLE"
  | table => "TABLE"
  | column => "COLUMN"
  | constraint => "CONSTRAINT"
  | index => "INDEX"
  | view => "VIEW"
  | function => "FUNCTION"
  | procedure => "PROCEDURE"
  | trigger => "TRIGGER"
  | sequence => "SEQUENCE"
  | type => "TYPE"
  | policy => "POLICY"

/-- The word for a kind in documents. -/
def name : ObjectKind → String
  | database => "database"
  | schema => "schema"
  | role => "role"
  | table => "table"
  | column => "column"
  | constraint => "constraint"
  | index => "index"
  | view => "view"
  | function => "function"
  | procedure => "procedure"
  | trigger => "trigger"
  | sequence => "sequence"
  | type => "type"
  | policy => "policy"

/-- Reads a kind from its keyword, in any case and with blank space around it. -/
def ofKeyword? (text : String) : Option ObjectKind :=
  let wanted := Text.upperAscii (Text.trim text)
  all.find? fun kind => kind.keyword == wanted

/-- Reads a kind from its exact word in documents. -/
def ofName? (text : String) : Option ObjectKind :=
  all.find? fun kind => kind.name == text

/-- Sub-elements live inside a table or a materialized view and vanish with it. -/
def isSubElement : ObjectKind → Bool
  | column | constraint | index | trigger | policy => true
  | _ => false

/-- Relations share one name space in each schema. -/
def isRelation : ObjectKind → Bool
  | table | view | sequence => true
  | _ => false

/-- Functions and procedures, which are told apart by their argument types. -/
def isRoutine : ObjectKind → Bool
  | function | procedure => true
  | _ => false

/-- Whether an object of the first kind may be owned by one of the second. -/
def canBeUnder : ObjectKind → ObjectKind → Bool
  | schema, database | role, database => true
  | table, schema | view, schema | function, schema | procedure, schema | sequence, schema
  | type, schema => true
  | column, table | constraint, table | policy, table => true
  | index, table | index, view | trigger, table | trigger, view => true
  | _, _ => false

/-- The kinds that may own an object of the given kind, in sorting order. -/
def owners (kind : ObjectKind) : List ObjectKind := all.filter kind.canBeUnder

theorem mem_all (kind : ObjectKind) : kind ∈ all := by cases kind <;> decide

theorem rank_injective {a b : ObjectKind} (h : a.rank = b.rank) : a = b := by
  cases a <;> cases b <;> simp [rank] at h ⊢

@[simp]
theorem ofName?_name (kind : ObjectKind) : ofName? kind.name = some kind := by
  cases kind <;> decide

end ObjectKind

end SchemaMigration
