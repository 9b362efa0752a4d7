/-!
# Cyclic components

A component of a graph is a largest set of nodes that all reach each other. `cyclicComponents`
lists those of more than one node. They come in the order in which a depth-first search finishes
them: the search starts at the nodes in order and takes the edges out of a node from the last added
to the first, and a component is finished with the last of its nodes.
-/

namespace SchemaMigration.Graph

/-- A graph on the nodes below `size`, with its edges in the order in which they were added. -/
structure Links where
  size : Nat
  edges : List (Nat × Nat)

namespace Links

/-- The ends of the edges out of a node, the last added first. -/
def successors (g : Links) (node : Nat) : List Nat :=
  ((g.edges.filter fun edge => edge.1 == node).map (·.2)).reverse

/-- The nodes found so far and the nodes still to visit; visits each node once. The first argument
bounds the steps. -/
def explore (g : Links) : Nat → List Nat → List Nat → List Nat
  | 0, seen, _ => seen
  | _ + 1, seen, [] => seen
  | fuel + 1, seen, node :: rest =>
    if seen.contains node then explore g fuel seen rest
    else explore g fuel (node :: seen) (g.successors node ++ rest)

/-- The nodes that a node reaches by at least one edge. An edge is followed at most twice, once of
them from the start. -/
def reachable (g : Links) (node : Nat) : List Nat :=
  g.explore (2 * g.edges.length) [] (g.successors node)

/-- The state of a depth-first search: the nodes that were entered, and those that were finished,
the last one first. -/
structure Search where
  entered : List Nat
  finished : List Nat

mutual

/-- Enters a node, visits what it leads to, and finishes it. -/
def visit (g : Links) : Nat → Search → Nat → Search
  | 0, s, _ => s
  | fuel + 1, s, node =>
    if s.entered.contains node then s
    else
      let s := visitAll g fuel { s with entered := node :: s.entered } (g.successors node)
      { s with finished := node :: s.finished }

/-- Visits nodes one after the other. -/
def visitAll (g : Links) : Nat → Search → List Nat → Search
  | 0, s, _ => s
  | _ + 1, s, [] => s
  | fuel + 1, s, node :: rest => visitAll g fuel (visit g fuel s node) rest

end

/-- The nodes in the order in which a depth-first search finishes them. -/
def finishOrder (g : Links) : List Nat :=
  let fuel := 2 * (g.edges.length + g.size) + 2
  (visitAll g fuel ⟨[], []⟩ (List.range g.size)).finished.reverse

/-- The components of more than one node, in the order in which they are finished. -/
def cyclicComponents (g : Links) : List (List Nat) :=
  let reach := (List.range g.size).map g.reachable
  let reaches (a b : Nat) : Bool := (reach.getD a []).contains b
  let order := g.finishOrder
  let component (a : Nat) : List Nat := order.filter fun b => a == b || (reaches a b && reaches b a)
  (order.map fun a => (a, component a)).filterMap fun (a, nodes) =>
    if 1 < nodes.length && nodes.getLast? == some a then some nodes else none

end Links

end SchemaMigration.Graph
