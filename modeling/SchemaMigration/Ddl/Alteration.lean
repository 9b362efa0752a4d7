/-!
# Alterations

What is done about an object whose definition has changed: nothing, statements that change it in
place, or dropping and creating it again. After some statements the objects that depend on it have
to be refreshed.
-/

namespace SchemaMigration

/-- A statement that changes an object in place. -/
structure InPlaceChange where
  sql : String
  /-- Whether the objects that depend on it have to be refreshed. -/
  invalidating : Bool := false
  deriving DecidableEq, Repr

/-- How a changed object is brought to its new definition. -/
inductive Alteration where
  | unchanged
  | inPlace (statements : List String)
  /-- In place, after which the objects that depend on it have to be refreshed. -/
  | withDependents (statements : List String)
  | recreate
  deriving DecidableEq, Repr

/-- The alteration that consists of some changes in place. -/
def Alteration.ofChanges (changes : List InPlaceChange) : Alteration :=
  let statements := changes.map (·.sql)
  if changes.isEmpty then unchanged
  else if changes.any (·.invalidating) then withDependents statements
  else inPlace statements

/-- The alteration by changes in place where they are possible, else by creating anew. -/
def Alteration.ofChanges? : Option (List InPlaceChange) → Alteration
  | some changes => ofChanges changes
  | none => recreate

end SchemaMigration
