import SchemaMigration.Object.Id
import SchemaMigration.Selection.Wildcard

/-!
# Selecting objects

A filter says which differences are migrated: those of the selection that no ignore rule matches
and whose kind is allowed. Patterns are compared with qualified names.
-/

namespace SchemaMigration

/-- Which objects are selected. -/
inductive Selection where
  | all
  | only (ids : List ObjectId)
  | matching (patterns : List String)
  deriving DecidableEq, Repr

namespace Selection

/-- The selection by patterns, where no pattern selects everything. -/
def ofPatterns (patterns : List String) : Selection :=
  if patterns.isEmpty then all else matching patterns

/-- Whether an object is selected. -/
def selects : Selection → ObjectId → Bool
  | all, _ => true
  | only ids, id => ids.contains id
  | matching patterns, id =>
    patterns.any fun pattern => Wildcard.accepts pattern id.qualifiedName

end Selection

/-- A rule that leaves out objects of some kinds, or of every kind if none is given. -/
structure IgnoreRule where
  pattern : String := ""
  kinds : List ObjectKind := []
  deriving DecidableEq, Repr, Inhabited

/-- Whether a rule leaves out an object. -/
def IgnoreRule.matches (rule : IgnoreRule) (id : ObjectId) : Bool :=
  (rule.kinds.isEmpty || rule.kinds.contains id.kind) &&
    Wildcard.accepts rule.pattern id.qualifiedName

/-- What is migrated. `allowed` lists the kinds that may be; without it every kind may. -/
structure SelectionFilter where
  selection : Selection := .all
  ignore : List IgnoreRule := []
  allowed : Option (List ObjectKind) := none
  deriving DecidableEq, Repr

/-- Whether a filter lets an object through. -/
def SelectionFilter.includes (filter : SelectionFilter) (id : ObjectId) : Bool :=
  filter.selection.selects id && !filter.ignore.any (·.matches id) &&
    ((filter.allowed.map (·.contains id.kind)).getD true)

end SchemaMigration
