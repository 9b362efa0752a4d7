import SchemaMigration.Error
import SchemaMigration.Snapshot.Fingerprint

/-!
# Snapshots

A snapshot is a finished tree of statements with their dependencies and fingerprints, in the order
in which they were added; the first is the database. The questions about the tree go down along
the children or up along the parents, which never takes more steps than there are statements.
-/

namespace SchemaMigration

/-- A finished tree of statements. -/
structure Snapshot where
  dialect : Dialect
  statements : List Statement
  fingerprints : List (ObjectId × Fingerprint)
  deriving Repr, Inhabited

namespace Snapshot

variable (snapshot : Snapshot)

/-- The statement of an identity. -/
def get? (id : ObjectId) : Option Statement := Statements.get? snapshot.statements id

/-- Whether an identity has a statement. -/
def contains (id : ObjectId) : Bool := Statements.has snapshot.statements id

/-- The statement of an identity that is meant to have one. -/
def require (id : ObjectId) (side : Side) : Except MigrationError Statement :=
  match snapshot.get? id with
  | some s => .ok s
  | none => .error (.unresolvedReference id side)

/-- The fingerprint of an identity. -/
def fingerprint (id : ObjectId) : Fingerprint := (snapshot.fingerprints.lookup id).getD default

/-- The statements under an identity, in order. -/
def children (id : ObjectId) : List Statement := Statements.children snapshot.statements id

/-- The columns of a table, in order. -/
def columns (table : ObjectId) : List Statement := Statements.columns snapshot.statements table

/-- The statement of a kind and name under a container. -/
def find? (container : ObjectId) (name : String) (kind : ObjectKind) : Option Statement :=
  snapshot.get? (container.child kind name) <|>
    (snapshot.children container).find? fun s => s.kind = kind && s.name = name

/-- The parent of an identity. -/
def parent? (id : ObjectId) : Option ObjectId := (snapshot.get? id).bind (·.parent)

/-- The statements at most so deep under an identity, parents before their children. -/
def descendantsWithin : Nat → ObjectId → List Statement
  | 0, _ => []
  | depth + 1, id =>
    (snapshot.children id).flatMap fun child => child :: descendantsWithin depth child.id

/-- Every statement under an identity, parents before their children. -/
def descendants (id : ObjectId) : List Statement :=
  snapshot.descendantsWithin snapshot.statements.length id

/-- The owners of an identity, at most so many, from the nearest on. -/
def ownersWithin : Nat → ObjectId → List ObjectId
  | 0, _ => []
  | steps + 1, id =>
    match snapshot.parent? id with
    | some parent => parent :: ownersWithin steps parent
    | none => []

/-- The owners of an identity, from the nearest on. -/
def owners (id : ObjectId) : List ObjectId :=
  snapshot.ownersWithin snapshot.statements.length id

/-- Whether one identity owns another, directly or through others. -/
def isDescendant (id ancestor : ObjectId) : Bool := (snapshot.owners id).contains ancestor

/-- The nearest of an identity and its owners that is no sub-element, or else the last owner. -/
def topLevel (id : ObjectId) : ObjectId :=
  let line := id :: snapshot.owners id
  ((line.find? fun owner => !owner.kind.isSubElement) <|> line.getLast?).getD id

/-- The statements that depend on an identity, in order. -/
def dependents (id : ObjectId) : List ObjectId :=
  (snapshot.statements.filter (·.dependencies.contains id)).map (·.id)

/-- The number of statements, which counts the database. -/
def size : Nat := snapshot.statements.length

/-- Whether there is nothing but the database. -/
def isEmpty : Bool := snapshot.size ≤ 1

end Snapshot

end SchemaMigration
