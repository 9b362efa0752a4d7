import SchemaMigration.Snapshot.Basic

/-!
# The tree of differences

Two snapshots are compared along their trees. Objects in both are compared by their fingerprints
alone, and a whole tree is passed over if its fingerprints agree. Columns are no nodes of their
own; they count as part of their table.
-/

namespace SchemaMigration

/-- Which of two snapshots hold an object. -/
inductive Presence where
  /-- The old one only: the object is to be dropped. -/
  | onlyOld
  /-- The new one only: the object is to be created. -/
  | onlyNew
  | both
  deriving DecidableEq, Repr, Inhabited

/-- The sign of a presence in lists of differences. -/
def Presence.symbol : Presence → String
  | onlyOld => "-"
  | onlyNew => "+"
  | both => "~"

/-- An object with its presence. -/
structure Element where
  id : ObjectId
  presence : Presence
  deriving DecidableEq, Repr, Inhabited

namespace Element

/-- The text of an element. -/
def display (element : Element) : String := element.presence.symbol ++ " " ++ element.id.display

/-- The statements of an element in the snapshots that are said to hold it. -/
def statements (element : Element) (old new : Snapshot) :
    Except MigrationError (Option Statement × Option Statement) := do
  let oldStatement ←
    if element.presence = .onlyNew then pure none else some <$> old.require element.id .old
  let newStatement ←
    if element.presence = .onlyOld then pure none else some <$> new.require element.id .new
  return (oldStatement, newStatement)

end Element

/-- A tree of differences. An object in both snapshots that has not changed itself is kept only
as the parent of others. -/
inductive Difference where
  | node (element : Element) (changed : Bool) (children : List Difference)
  deriving Inhabited

namespace Difference

/-- The object of a node. -/
def element : Difference → Element
  | node element _ _ => element

/-- Whether the object itself or one of its columns has changed. -/
def changed : Difference → Bool
  | node _ changed _ => changed

/-- The nodes under a node. -/
def children : Difference → List Difference
  | node _ _ children => children

/-- Whether the object itself is added, removed or changed. -/
def isDifference (d : Difference) : Bool := d.element.presence ≠ .both || d.changed

mutual

/-- Whether a node or any under it is a difference. -/
def hasChanges : Difference → Bool
  | node element changed children =>
    (node element changed children).isDifference || anyHasChanges children

/-- Whether any of some nodes has changes. -/
def anyHasChanges : List Difference → Bool
  | [] => false
  | d :: ds => d.hasChanges || anyHasChanges ds

end

/-- The tree of an object that one snapshot only holds, at most so deep. -/
def oneSided (snapshot : Snapshot) (presence : Presence) : Nat → Statement → Difference
  | 0, s => node ⟨s.id, presence⟩ true []
  | depth + 1, s =>
    node ⟨s.id, presence⟩ true
      (((snapshot.children s.id).filter (·.kind ≠ .column)).map (oneSided snapshot presence depth))

/-- The differences of an object in both snapshots, at most so deep; nothing if there are none. -/
def compare (old new : Snapshot) : Nat → Statement → Statement →
    Except MigrationError (Option Difference)
  | 0, _, _ => .ok none
  | depth + 1, left, right =>
    if left.definition.kind ≠ right.definition.kind then
      .error (.typeMismatch right.id left.definition.kind right.definition.kind)
    else
      let (leftPrint, rightPrint) := (old.fingerprint left.id, new.fingerprint right.id)
      if leftPrint.tree = rightPrint.tree then .ok none
      else do
        let changed := leftPrint.element ≠ rightPrint.element
        let kept ← ((new.children right.id).filter (·.kind ≠ .column)).filterMapM fun child =>
          match old.get? child.id with
          | some previous => compare old new depth previous child
          | none => .ok (some (oneSided new .onlyNew new.size child))
        let removed := ((old.children left.id).filter fun child =>
          child.kind ≠ .column && !new.contains child.id).map (oneSided old .onlyOld old.size)
        if !changed && (kept ++ removed).isEmpty then return none
        else return some (node ⟨right.id, .both⟩ changed (kept ++ removed))

/-- The tree of differences of two snapshots of one dialect. -/
def ofSnapshots (old new : Snapshot) : Except MigrationError Difference := do
  if old.dialect ≠ new.dialect then throw (.dialectMismatch old.dialect new.dialect)
  let root : Difference := node ⟨.database, .both⟩ false []
  match old.get? .database, new.get? .database with
  | some left, some right => return (← compare old new new.size left right).getD root
  | _, _ => return root

end Difference

end SchemaMigration
