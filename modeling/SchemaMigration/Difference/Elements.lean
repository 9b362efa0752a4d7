import SchemaMigration.Difference.Tree
import SchemaMigration.Selection.Filter

/-!
# The elements to migrate

The tree of differences becomes a list: first the nodes that the filter lets through, parents
before what is under them, then for each selected table in both snapshots its columns that were
added, changed or removed.
-/

namespace SchemaMigration.Difference

mutual

/-- The differences of a tree that a filter lets through, parents first. -/
def selected (filter : SelectionFilter) : Difference → List Element
  | node element changed children =>
    (if (node element changed children).isDifference && filter.includes element.id then [element]
      else []) ++ selectedAll filter children

/-- The differences of several trees that a filter lets through. -/
def selectedAll (filter : SelectionFilter) : List Difference → List Element
  | [] => []
  | d :: ds => selected filter d ++ selectedAll filter ds

end

/-- The columns of a table in both snapshots that were added, changed or removed. -/
def columnChanges (old new : Snapshot) (table : ObjectId) : List Element :=
  (new.columns table).filterMap (fun column =>
    match old.get? column.id with
    | none => some ⟨column.id, .onlyNew⟩
    | some previous => if previous.sameContent column then none else some ⟨column.id, .both⟩) ++
  ((old.columns table).filter fun column => !new.contains column.id).map
    fun column => ⟨column.id, .onlyOld⟩

/-- The elements to migrate. -/
def elements (tree : Difference) (old new : Snapshot) (filter : SelectionFilter) : List Element :=
  let chosen := tree.selected filter
  let tables := chosen.filter fun element => element.presence = .both && element.id.kind = .table
  chosen ++ tables.flatMap fun element => columnChanges old new element.id

end SchemaMigration.Difference
