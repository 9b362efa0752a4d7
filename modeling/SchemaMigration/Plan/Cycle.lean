import SchemaMigration.Plan.Precedence

/-!
# Breaking cycles

A graph of steps with a cycle has no order. In each cyclic component the constraints that stand in
the definition of a table and keep the cycle together are detached; if there are none, the
precedences through pass-through steps are severed; if there are none either, there is no way out.
Then the graph is made anew, until no cycle is left.
-/

namespace SchemaMigration

namespace Breaks

/-- Detaches a constraint. -/
def detach (breaks : Breaks) (constraint : ObjectId) : Breaks :=
  if breaks.detached.contains constraint then breaks
  else { breaks with detached := breaks.detached ++ [constraint] }

/-- Severs a precedence. -/
def sever (breaks : Breaks) (pair : StepKey × StepKey) : Breaks :=
  if breaks.severed.contains pair then breaks
  else { breaks with severed := breaks.severed ++ [pair] }

end Breaks

/-- What has to be given up to break one component, with what was given up before. -/
def StepGraph.breakComponent (graph : StepGraph) (breaks : Breaks) (component : List StepKey) :
    Except MigrationError Breaks :=
  let inside := graph.inside component
  let inline := inside.filterMap (·.reason.constraint?)
  let soft := (inside.filter (·.reason = .soft)).map fun p => (p.earlier, p.later)
  if !inline.isEmpty then .ok (inline.foldl Breaks.detach breaks)
  else if !soft.isEmpty then .ok (soft.foldl Breaks.sever breaks)
  else .error (.ofCycle component)

namespace Staging

/-- Breaks cycles until none is left, in at most so many rounds after the first. -/
def acyclic (st : Staging) : Nat → Breaks → Except MigrationError (StepGraph × Breaks)
  | 0, breaks => do
    let graph ← { st with breaks }.stepGraph
    match graph.cyclicComponents with
    | [] => return (graph, breaks)
    | component :: _ => throw (.ofCycle component)
  | rounds + 1, breaks => do
    let graph ← { st with breaks }.stepGraph
    match graph.cyclicComponents with
    | [] => return (graph, breaks)
    | component :: components =>
      let next ← (component :: components).foldlM graph.breakComponent breaks
      if next = breaks then throw (.ofCycle component) else acyclic st rounds next

/-- A bound on the number of breaks: each detaches a constraint or severs a pair of steps. -/
def breakBound (st : Staging) : Nat :=
  let objects := st.plan.old.size + st.plan.new.size + st.plan.entries.length
  objects + (4 * objects) * (4 * objects)

/-- A graph of steps without cycles, and what was given up for it. -/
def acyclicGraph (st : Staging) : Except MigrationError (StepGraph × Breaks) :=
  st.acyclic st.breakBound st.breaks

end Staging

end SchemaMigration
