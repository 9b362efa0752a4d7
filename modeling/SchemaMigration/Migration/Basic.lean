import SchemaMigration.Difference.Elements
import SchemaMigration.Plan.Cycle
import SchemaMigration.Plan.Expansion

/-!
# Migrations

A migration brings one snapshot to another by actions in an order that respects all dependencies:
what is dropped is dropped after everything that needs it, what is created is created after
everything that it needs.
-/

namespace SchemaMigration

/-- One action of a migration. -/
structure Action where
  kind : StepKind
  /-- What is done with the object as a whole. -/
  treatment : Treatment
  /-- The old statement for a drop, else the new one. -/
  statement : Statement
  /-- Whether the object is touched only since something it needs changes. -/
  refresh : Bool
  /-- The statements of an alteration. -/
  statements : List String
  deriving DecidableEq, Repr

/-- The line of an action in a plan. -/
def Action.display (action : Action) : String :=
  action.kind.name ++ " " ++ action.treatment.name ++ " " ++ action.statement.id.display ++
    if action.refresh then " [refresh]" else ""

/-- What brings the snapshot `old` to the snapshot `new`. -/
structure Migration where
  old : Snapshot
  new : Snapshot
  /-- Every object that is touched. -/
  entries : List PlanEntry
  /-- The actions in the order in which they run. -/
  actions : List Action
  /-- The constraints that have actions of their own instead of standing in their tables. -/
  detached : List ObjectId
  deriving Repr

namespace Migration

/-- The action of a step; pass-through steps have none. -/
def action? (plan : Plan) (step : Step) : Option Action :=
  step.key.kind.treatment?.map fun treatment =>
    let entry := plan.get? step.key.id
    { kind := step.key.kind
      treatment := (entry.map (·.treatment)).getD treatment
      statement := step.statement
      refresh := (entry.map (·.isRefresh)).getD false
      statements :=
        if step.key.kind = .alter then (entry.map (·.statements)).getD [] else [] }

/-- The migration of a plan: the plan is expanded, and its steps are put in order. -/
def ofPlan (plan : Plan) (extra : ExtraDependencies) : Except MigrationError Migration := do
  let plan := plan.expand extra.old
  let (graph, breaks) ← { plan, extra : Staging }.acyclicGraph
  match graph.sorted? with
  | none => throw (.ofCycle graph.keys)
  | some keys =>
    let steps := keys.filterMap fun key => graph.steps.find? (·.key == key)
    return {
      old := plan.old
      new := plan.new
      entries := plan.entries
      actions := steps.filterMap (action? plan)
      detached := ObjectId.sortedSet breaks.detached }

/-- The migration of some elements. -/
def ofElements (old new : Snapshot) (elements : List Element) (extra : ExtraDependencies) :
    Except MigrationError Migration := do
  extra.check old new
  ofPlan (← Plan.ofElements old new elements) extra

/-- The migration of the differences that a filter lets through. -/
def ofSnapshots (old new : Snapshot) (filter : SelectionFilter) (extra : ExtraDependencies) :
    Except MigrationError Migration := do
  let tree ← Difference.ofSnapshots old new
  ofElements old new (tree.elements old new filter) extra

/-- Whether nothing is to be done. -/
def isEmpty (m : Migration) : Bool := m.actions.isEmpty

/-- The objects that are touched only since something they need changes. -/
def refreshed (m : Migration) : List ObjectId := (m.entries.filter (·.isRefresh)).map (·.id)

/-- The plan as text: the actions in order, then the refreshed objects. -/
def describe (m : Migration) : String :=
  let lines := String.join (m.actions.map fun action => action.display ++ "\n")
  if m.refreshed.isEmpty then lines
  else
    lines ++ "\nTo refresh:\n" ++ String.join (m.refreshed.map fun id => "  " ++ id.display ++ "\n")

end Migration

end SchemaMigration
