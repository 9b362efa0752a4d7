import SchemaMigration.Object.Definition

/-!
# Statements of a snapshot

A statement is one object of a schema with its place in the tree: its owner in the tree is its
parent, and it lists its children in the order in which they were added.
-/

namespace SchemaMigration

/-- One object of a snapshot. -/
structure Statement where
  id : ObjectId
  parent : Option ObjectId
  definition : Definition
  owner : Option String := none
  comment : Option String := none
  children : List ObjectId := []
  /-- The dependencies that were stated. -/
  stated : List ObjectId := []
  /-- All dependencies known so far, each once. -/
  dependencies : List ObjectId := []
  deriving DecidableEq, Repr, Inhabited

namespace Statement

/-- The kind of the object. -/
def kind (s : Statement) : ObjectKind := s.id.kind

/-- The name as statements write it, for a routine without its argument types. -/
def name (s : Statement) : String := s.id.bareName

/-- Two statements agree but for their place and their dependencies. -/
def sameContent (s t : Statement) : Bool :=
  s.definition == t.definition && s.owner == t.owner && s.comment == t.comment

/-- The definition of a column. -/
def column? (s : Statement) : Option ColumnDefinition :=
  match s.definition with
  | .column definition => some definition
  | _ => none

/-- Adds a dependency, unless it is known or is the statement itself. -/
def addDependency (s : Statement) (dependency : ObjectId) : Statement :=
  if dependency = s.id || s.dependencies.contains dependency then s
  else { s with dependencies := s.dependencies ++ [dependency] }

/-- Adds dependencies one after the other. -/
def addDependencies (s : Statement) (dependencies : List ObjectId) : Statement :=
  dependencies.foldl addDependency s

/-- Adds a stated dependency, unless it was stated before. -/
def state (s : Statement) (dependency : ObjectId) : Statement :=
  if s.stated.contains dependency then s else { s with stated := s.stated ++ [dependency] }

end Statement

namespace Statements

/-- The statement of an identity. -/
def get? (statements : List Statement) (id : ObjectId) : Option Statement :=
  statements.find? (·.id == id)

/-- Whether an identity has a statement. -/
def has (statements : List Statement) (id : ObjectId) : Bool := statements.any (·.id == id)

/-- Changes the statement of an identity. -/
def modify (statements : List Statement) (id : ObjectId) (change : Statement → Statement) :
    List Statement :=
  statements.map fun s => if s.id = id then change s else s

/-- The statements of the children of an identity, in order. -/
def children (statements : List Statement) (id : ObjectId) : List Statement :=
  match get? statements id with
  | some s => s.children.filterMap (get? statements)
  | none => []

/-- The columns of a table, in order. -/
def columns (statements : List Statement) (table : ObjectId) : List Statement :=
  (children statements table).filter (·.kind = .column)

end Statements

end SchemaMigration
