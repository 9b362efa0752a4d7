/-!
# Topological order with priorities

`topologicalOrder` repeatedly takes, among the nodes whose predecessors were all taken, the one with
the smallest key; equal keys are taken in the order of the list. It fails exactly when some node is
left with a predecessor that is never taken, that is, when the edges form a cycle.

Each node has a counter of the edges into it from nodes not taken yet, and is ready when its counter
is zero. Edges that name a node outside the list are ignored, and edges of a node that is listed
twice belong to its last occurrence.
-/

namespace SchemaMigration.Graph

/-- The position of the last occurrence of `a`, counted from `start`. -/
def lastPosition? {α : Type} [DecidableEq α] (a : α) : Nat → List α → Option Nat
  | _, [] => none
  | start, b :: bs =>
    match lastPosition? a (start + 1) bs with
    | some position => some position
    | none => if a = b then some start else none

/-- The edges between listed nodes, as pairs of positions. -/
def positionedEdges {α : Type} [DecidableEq α] (nodes : List α) (edges : List (α × α)) :
    List (Nat × Nat) :=
  edges.filterMap fun (source, target) => do
    return (← lastPosition? source 0 nodes, ← lastPosition? target 0 nodes)

/-- The number of edges into a position. -/
def inDegree (edges : List (Nat × Nat)) (position : Nat) : Nat :=
  edges.countP fun edge => edge.2 == position

/-- The state of the search: the positions that are ready, by key and position, and the counters
of all positions. -/
structure Frontier (κ : Type) where
  ready : List (κ × Nat)
  counters : Array Nat

variable {κ : Type}

/-- Whether one ready position is taken before another. -/
def precedes [Ord κ] (a b : κ × Nat) : Bool := ((compare a.1 b.1).then (compare a.2 b.2)).isLE

/-- Inserts a position into the sorted list of ready ones. -/
def insertReady [Ord κ] (entry : κ × Nat) : List (κ × Nat) → List (κ × Nat)
  | [] => [entry]
  | other :: rest =>
    if precedes entry other then entry :: other :: rest else other :: insertReady entry rest

/-- Takes one edge away from the counter of its target, which becomes ready at zero. -/
def Frontier.release [Ord κ] (keys : List κ) (frontier : Frontier κ) (target : Nat) :
    Frontier κ :=
  let counters := frontier.counters.modify target (· - 1)
  match counters[target]?, keys[target]? with
  | some 0, some key => ⟨insertReady (key, target) frontier.ready, counters⟩
  | _, _ => ⟨frontier.ready, counters⟩

/-- The targets of the edges out of a position, in the order of the edges. -/
def targetsOf (edges : List (Nat × Nat)) (position : Nat) : List Nat :=
  (edges.filter fun edge => edge.1 == position).map (·.2)

/-- The positions in the order in which they are taken. The first argument bounds their number. -/
def take [Ord κ] (keys : List κ) (edges : List (Nat × Nat)) : Nat → Frontier κ → List Nat
  | 0, _ => []
  | count + 1, frontier =>
    match frontier.ready with
    | [] => []
    | (_, position) :: ready =>
      let frontier := { frontier with ready }
      position ::
        take keys edges count ((targetsOf edges position).foldl (Frontier.release keys) frontier)

/-- The frontier before any position is taken. -/
def Frontier.initial [Ord κ] (keys : List κ) (edges : List (Nat × Nat)) : Frontier κ where
  ready :=
    keys.zipIdx.foldr
      (fun entry ready => if inDegree edges entry.2 = 0 then insertReady entry ready else ready) []
  counters := ((List.range keys.length).map (inDegree edges)).toArray

/-- The nodes in an order that respects the edges, smallest keys first; `none` if the edges form
a cycle. -/
def topologicalOrder {α : Type} [DecidableEq α] [Ord κ] (nodes : List (α × κ))
    (edges : List (α × α)) : Option (List α) :=
  let keys := nodes.map (·.2)
  let links := positionedEdges (nodes.map (·.1)) edges
  let order := take keys links nodes.length (Frontier.initial keys links)
  if order.length = nodes.length then
    some (order.filterMap fun position => (nodes[position]?).map (·.1))
  else none

end SchemaMigration.Graph
