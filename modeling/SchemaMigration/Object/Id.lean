import SchemaMigration.Object.Kind
import SchemaMigration.Text.Segment

/-!
# Identities of schema objects

An object is identified by its kind and its path: the empty path for the database, one segment for
a schema or a role, `[schema, name]` for what a schema owns and `[schema, table, name]` for
sub-elements. The last segment of a routine is its signature `name(type, ...)`, which keeps
overloads apart.
-/

namespace SchemaMigration

/-- The identity of a schema object. -/
structure ObjectId where
  kind : ObjectKind
  path : List String
  deriving DecidableEq, Repr, Inhabited, Hashable

/-- The signature of a routine: its name and, in parentheses, its argument types. -/
def signature (name : String) (argumentTypes : List String) : String :=
  name ++ "(" ++ Text.commaList (argumentTypes.map Text.trim) ++ ")"

namespace ObjectId

/-- The identity of the database, the root of every schema. -/
def database : ObjectId := ⟨.database, []⟩

/-- The identity of a table. -/
def table (schema name : String) : ObjectId := ⟨.table, [schema, name]⟩

/-- The identity of a function with the given argument types. -/
def function (schema name : String) (argumentTypes : List String) : ObjectId :=
  ⟨.function, [schema, signature name argumentTypes]⟩

/-- The identity of a procedure with the given argument types. -/
def procedure (schema name : String) (argumentTypes : List String) : ObjectId :=
  ⟨.procedure, [schema, signature name argumentTypes]⟩

/-- The identity of an object of the given kind and name under `owner`. -/
def child (owner : ObjectId) (kind : ObjectKind) (name : String) : ObjectId :=
  ⟨kind, owner.path ++ [name]⟩

/-- The last segment of the path, which for a routine is its signature. -/
def name (id : ObjectId) : String := id.path.getLastD ""

/-- The last segment of the path, for a routine without its argument types. -/
def bareName (id : ObjectId) : String :=
  if id.kind.isRoutine then Text.before '(' id.name else id.name

/-- The schema an object lives in; the database and roles live in none. -/
def schemaName? (id : ObjectId) : Option String :=
  match id.kind with
  | .database | .role => none
  | _ => id.path.head?

/-- The path of the owner. -/
def containerPath (id : ObjectId) : List String := id.path.dropLast

/-- The segments of the path with dots between them. -/
def qualifiedName (id : ObjectId) : String := Text.join "." id.path

/-- The place of a table, view or sequence in the name space of its schema. -/
def relationKey? (id : ObjectId) : Option (String × String) :=
  match id.kind.isRelation, id.path with
  | true, [schema, name] => some (schema, name)
  | _, _ => none

/-- The text that messages and plans show for an object. -/
def display (id : ObjectId) : String :=
  match id.path with
  | [] => id.kind.keyword
  | _ => id.kind.keyword ++ " " ++ id.qualifiedName

/-- Objects are sorted by kind, then by path. -/
protected def compare (a b : ObjectId) : Ordering :=
  (compare a.kind.rank b.kind.rank).then (Text.compareSegments a.path b.path)

/-- The sorting order as a test. -/
protected def ble (a b : ObjectId) : Bool := (ObjectId.compare a b).isLE

/-- Puts an identity in its place among others in sorting order. -/
def insertSorted (id : ObjectId) : List ObjectId → List ObjectId
  | [] => [id]
  | other :: rest => if id.ble other then id :: other :: rest else other :: insertSorted id rest

/-- The identities in sorting order, each once. -/
def sortedSet (ids : List ObjectId) : List ObjectId := ids.eraseDups.foldr insertSorted []

@[simp]
theorem child_kind (owner : ObjectId) (kind : ObjectKind) (name : String) :
    (owner.child kind name).kind = kind := rfl

@[simp]
theorem child_path (owner : ObjectId) (kind : ObjectKind) (name : String) :
    (owner.child kind name).path = owner.path ++ [name] := rfl

@[simp]
theorem child_containerPath (owner : ObjectId) (kind : ObjectKind) (name : String) :
    (owner.child kind name).containerPath = owner.path := by
  simp [containerPath]

@[simp]
theorem child_name (owner : ObjectId) (kind : ObjectKind) (name : String) :
    (owner.child kind name).name = name := by
  simp [ObjectId.name]

end ObjectId

end SchemaMigration
