import SchemaMigration.Graph.Components
import SchemaMigration.Graph.TopologicalOrder
import SchemaMigration.Plan.Basic

/-!
# Steps and their order

A step drops, creates or alters one object; the steps of a migration form a graph whose edges say
which step runs before which. A pass-through step changes nothing: it stands for an untouched object
between two others on a chain of dependencies.
-/

namespace SchemaMigration

/-- What a step does. -/
inductive StepKind where
  | drop
  | create
  | alter
  | passThrough
  deriving DecidableEq, Repr, Inhabited

/-- The word for what a step does. -/
def StepKind.name : StepKind → String
  | drop => "DROP"
  | create => "CREATE"
  | alter => "ALTER"
  | passThrough => "PASS"

/-- Where the order leaves a choice, drops go before creations and alterations. -/
def StepKind.rank : StepKind → Nat
  | drop | passThrough => 0
  | create | alter => 1

/-- The treatment of an object without an entry, by what is done with it. -/
def StepKind.treatment? : StepKind → Option Treatment
  | drop => some .drop
  | create => some .create
  | alter => some .alter
  | passThrough => none

/-- A step is known by what it does with which object. -/
structure StepKey where
  kind : StepKind
  id : ObjectId
  deriving DecidableEq, Repr, Inhabited

/-- A step with the statement that it is about: the old one for a drop, else the new one. -/
structure Step where
  key : StepKey
  statement : Statement
  order : Nat
  deriving DecidableEq, Repr, Inhabited

/-- The place of a step where dependencies leave a choice. -/
structure Priority where
  rank : Nat
  order : Nat
  deriving DecidableEq, Repr, Ord

/-- The priority of a step. -/
def Step.priority (step : Step) : Priority := ⟨step.key.kind.rank, step.order⟩

/-- Why one step runs before another. -/
inductive Reason where
  | hard
  /-- A constraint that stands in the definition of its table. -/
  | inline (constraint : ObjectId)
  /-- A pass-through step. -/
  | soft
  deriving DecidableEq, Repr, Inhabited

/-- The constraint that a reason goes back to. -/
def Reason.constraint? : Reason → Option ObjectId
  | inline constraint => some constraint
  | _ => none

/-- One step runs before another. -/
structure Precedence where
  earlier : StepKey
  later : StepKey
  reason : Reason
  deriving DecidableEq, Repr, Inhabited

/-- Whether some steps have one of a key. -/
def Steps.has (steps : List Step) (key : StepKey) : Bool := steps.any (·.key == key)

/-- Steps and what is known of their order. -/
structure StepGraph where
  steps : List Step
  precedences : List Precedence
  deriving Repr

namespace StepGraph

variable (graph : StepGraph)

/-- The keys of all steps. -/
def keys : List StepKey := graph.steps.map (·.key)

/-- The precedences as pairs. -/
def pairs : List (StepKey × StepKey) := graph.precedences.map fun p => (p.earlier, p.later)

/-- The graph of the positions of its steps. -/
def links : Graph.Links where
  size := graph.steps.length
  edges := Graph.positionedEdges graph.keys graph.pairs

/-- The components of more than one step. -/
def cyclicComponents : List (List StepKey) :=
  graph.links.cyclicComponents.map fun component => component.filterMap (graph.keys[·]?)

/-- The precedences inside a component. -/
def inside (component : List StepKey) : List Precedence :=
  graph.precedences.filter fun p => component.contains p.earlier && component.contains p.later

/-- The steps in an order that respects the precedences, by priority where these leave a choice;
nothing if they form a cycle. -/
def sorted? : Option (List StepKey) :=
  Graph.topologicalOrder (graph.steps.map fun step => (step.key, step.priority)) graph.pairs

end StepGraph

/-- The fault of a cycle of some steps, which names their objects. -/
def MigrationError.ofCycle (steps : List StepKey) : MigrationError :=
  .unresolvableCycle
    ((steps.map (·.id.display)).eraseDups.mergeSort fun a b => (compare a b).isLE)

end SchemaMigration
