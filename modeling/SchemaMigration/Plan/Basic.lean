import SchemaMigration.Difference.Tree
import SchemaMigration.Plan.ExtraDependencies
import SchemaMigration.Plan.Treatment

/-!
# Plans

A plan lists the objects that a migration touches, each once and with its treatment. It starts from
the elements that were selected; what has to be touched on their account is added behind them.
-/

namespace SchemaMigration

/-- Why an object is part of a plan. -/
inductive Origin where
  | selected
  /-- Dropped, and created again if it is still there, since something it needs changes. -/
  | refreshed
  /-- Refreshed without a drop, since something it needs is altered in place. -/
  | refreshedInPlace
  /-- Touched since its owner is recreated. -/
  | recreatedChild
  deriving DecidableEq, Repr, Inhabited

/-- The word for an origin. -/
def Origin.name : Origin → String
  | selected => "selected"
  | refreshed => "refreshed"
  | refreshedInPlace => "refreshed_in_place"
  | recreatedChild => "recreated_child"

/-- An object of a plan. -/
structure PlanEntry where
  id : ObjectId
  treatment : Treatment
  origin : Origin
  /-- Smaller numbers go first where dependencies leave a choice. -/
  order : Nat
  /-- The statements that alter the object in place. -/
  statements : List String := []
  deriving DecidableEq, Repr, Inhabited

/-- Whether an object is touched only since something it needs changes. -/
def PlanEntry.isRefresh (entry : PlanEntry) : Bool :=
  entry.origin = .refreshed || entry.origin = .refreshedInPlace

/-- The objects that a migration from `old` to `new` touches. -/
structure Plan where
  old : Snapshot
  new : Snapshot
  entries : List PlanEntry := []
  deriving Repr, Inhabited

namespace Plan

/-- The entry of an identity. -/
def get? (plan : Plan) (id : ObjectId) : Option PlanEntry := plan.entries.find? (·.id == id)

/-- Whether an identity has an entry. -/
def contains (plan : Plan) (id : ObjectId) : Bool := plan.entries.any (·.id == id)

/-- Changes the entry of an identity. -/
def modify (plan : Plan) (id : ObjectId) (change : PlanEntry → PlanEntry) : Plan :=
  { plan with
    entries := plan.entries.map fun entry => if entry.id = id then change entry else entry }

/-- Gives an entry another treatment, for which nothing is altered in place. -/
def reassign (plan : Plan) (id : ObjectId) (treatment : Treatment) : Plan :=
  plan.modify id fun entry => { entry with treatment, statements := [] }

/-- A number behind those of all entries. -/
def nextOrder (plan : Plan) : Nat :=
  plan.entries.foldl (fun next entry => max next (entry.order + 1)) 0

/-- Adds an object that was not selected, behind all others. -/
def derive (plan : Plan) (id : ObjectId) (treatment : Treatment) (origin : Origin)
    (statements : List String) : Plan :=
  { plan with
    entries := plan.entries ++ [{ id, treatment, origin, order := plan.nextOrder, statements }] }

/-- Whether the entry of an identity has a treatment of some sort. -/
def treats (plan : Plan) (id : ObjectId) (sort : Treatment → Bool) : Bool :=
  ((plan.get? id).map fun entry => sort entry.treatment).getD false

/-- Whether an identity is a sub-element whose table is dropped. -/
def droppedWithTable (plan : Plan) (id : ObjectId) : Bool :=
  id.kind.isSubElement && plan.treats (plan.old.topLevel id) Treatment.drops

/-- Whether an identity is a sub-element whose table is created. -/
def createdWithTable (plan : Plan) (id : ObjectId) : Bool :=
  id.kind.isSubElement && plan.treats (plan.new.topLevel id) Treatment.creates

/-- Adds an element with its place among those selected, unless it is known or needs nothing. -/
def select (plan : Plan) (element : Element) (order : Nat) : Except MigrationError Plan :=
  if plan.contains element.id then .ok plan
  else do
    let (old, new) ← element.statements plan.old plan.new
    let decision ← plan.new.dialect.decideOn element.id old new
    if decision.treatment = .nothing then return plan
    else
      return { plan with
        entries := plan.entries ++
          [{ id := element.id, treatment := decision.treatment, origin := .selected, order,
             statements := decision.statements }] }

/-- The plan of some elements. -/
def ofElements (old new : Snapshot) (elements : List Element) : Except MigrationError Plan :=
  elements.zipIdx.foldlM (fun plan (element, order) => plan.select element order) { old, new }

end Plan

end SchemaMigration
