import SchemaMigration.Ddl.Generator

/-!
# Treatments

What a migration does with one object: the treatment follows from the definitions that the two
snapshots hold, and from whether the dialect can bring the old one to the new one in place.
-/

namespace SchemaMigration

/-- What is done with an object. -/
inductive Treatment where
  | create
  | drop
  | alter
  /-- The old definition is dropped, then the new one created. -/
  | recreate
  /-- Altered in place, after which what depends on it has to be refreshed. -/
  | alterWithDependents
  | nothing
  deriving DecidableEq, Repr, Inhabited

namespace Treatment

/-- The word for a treatment in plans. -/
def name : Treatment → String
  | create => "CREATE"
  | drop => "DROP"
  | alter => "ALTER"
  | recreate => "RECREATE"
  | alterWithDependents => "ALTER_WITH_DEP"
  | nothing => "NOTHING"

/-- Whether the old definition goes away. -/
def drops : Treatment → Bool
  | drop | recreate => true
  | _ => false

/-- Whether the new definition is created. -/
def creates : Treatment → Bool
  | create | recreate => true
  | _ => false

/-- Whether the object is altered in place. -/
def alters : Treatment → Bool
  | alter | alterWithDependents => true
  | _ => false

end Treatment

/-- A treatment with the statements that alter the object in place. -/
structure Decision where
  treatment : Treatment
  statements : List String := []
  deriving DecidableEq, Repr

/-- The decision that carries out an alteration. -/
def Decision.ofAlteration : Alteration → Decision
  | .unchanged => { treatment := .nothing }
  | .inPlace statements => { treatment := .alter, statements }
  | .withDependents statements => { treatment := .alterWithDependents, statements }
  | .recreate => { treatment := .recreate }

/-- Decides on an object by the statements that the two snapshots hold for it. -/
def Dialect.decideOn (dialect : Dialect) (id : ObjectId) (old new : Option Statement) :
    Except MigrationError Decision :=
  if !dialect.supports id.kind then .error (.unsupportedKind dialect id.kind)
  else
    match old, new with
    | none, some _ => .ok { treatment := .create }
    | some _, none => .ok { treatment := .drop }
    | some old, some new =>
      if old.definition.kind ≠ new.definition.kind then
        .error (.typeMismatch id old.definition.kind new.definition.kind)
      else if old.sameContent new then .ok { treatment := .nothing }
      else (dialect.alter old new).map .ofAlteration
    | none, none => .error (.unresolvedReference id .new)

end SchemaMigration
