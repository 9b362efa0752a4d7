import SchemaMigration.Proofs.Graph.TopologicalOrder

/-!
# Topological orders of distinct nodes

When the nodes are distinct, the search gives an order exactly when the edges between listed nodes
form no cycle (`topologicalOrder_exact`). An order excludes a cycle because along each edge the
index in the order goes up (`idxOf_lt_of_topologicalOrder`); a cycle of positions, which is all that
can stop the search, is a cycle of the nodes there (`transGen_linked_of_positions`).

Counters are natural numbers, so taking one from zero would pass unnoticed. `take?` is the search
that refuses to do so, and gives the same positions: a target that is due still has the edge counted
that is being released (`Frontier.Tracks.release?_eq`).
-/

namespace SchemaMigration.Graph

open Relation

/-! ## Edges between listed nodes -/

/-- There is an edge from one listed node to another. -/
def Linked {α : Type} (nodes : List α) (edges : List (α × α)) (a b : α) : Prop :=
  (a, b) ∈ edges ∧ a ∈ nodes ∧ b ∈ nodes

/-- A path through positions is a path through the nodes that they hold. -/
theorem transGen_linked_of_positions {α : Type} [DecidableEq α] {nodes : List α}
    {edges : List (α × α)} {i j : Nat}
    (h : TransGen (fun i j => (i, j) ∈ positionedEdges nodes edges) i j) :
    ∃ a b, nodes[i]? = some a ∧ nodes[j]? = some b ∧ TransGen (Linked nodes edges) a b := by
  have hedge : ∀ {i j}, (i, j) ∈ positionedEdges nodes edges →
      ∃ a b, nodes[i]? = some a ∧ nodes[j]? = some b ∧ Linked nodes edges a b := fun hij =>
    have ⟨a, b, hab, ha, hb⟩ := exists_of_mem_positionedEdges hij
    ⟨a, b, ha, hb, hab, List.mem_of_getElem? ha, List.mem_of_getElem? hb⟩
  induction h with
  | single hij =>
    obtain ⟨a, b, ha, hb, hab⟩ := hedge hij
    exact ⟨a, b, ha, hb, .single hab⟩
  | tail _ hjk ih =>
    obtain ⟨a, b, ha, hb, hpath⟩ := ih
    obtain ⟨b', c, hb', hc, hbc⟩ := hedge hjk
    obtain rfl : b = b' := Option.some.inj (hb.symm.trans hb')
    exact ⟨a, c, ha, hc, hpath.tail hbc⟩

/-- What stands before another element in a list without repetition has the smaller index. -/
theorem idxOf_lt_of_sublist {α : Type} [DecidableEq α] {l : List α} (hl : l.Nodup) {a b : α}
    (h : [a, b].Sublist l) : l.idxOf a < l.idxOf b := by
  have hpair : l.Pairwise fun x y => l.idxOf x < l.idxOf y := by
    rw [List.pairwise_iff_getElem]
    intro i j hi hj hij
    rwa [hl.idxOf_getElem, hl.idxOf_getElem]
  exact List.rel_of_pairwise_cons (hpair.sublist h) (List.mem_singleton_self b)

/-- Where each edge leads to a larger index of a list, no path returns to its start. -/
theorem not_transGen_of_idxOf_lt {α : Type} [DecidableEq α] {nodes order : List α}
    {edges : List (α × α)}
    (h : ∀ a b, Linked nodes edges a b → order.idxOf a < order.idxOf b) (a : α) :
    ¬ TransGen (Linked nodes edges) a a := by
  intro hcycle
  have hlt : ∀ {b}, TransGen (Linked nodes edges) a b → order.idxOf a < order.idxOf b :=
    fun hpath => by
      induction hpath with
      | single hab => exact h _ _ hab
      | tail _ hbc ih => exact ih.trans (h _ _ hbc)
  exact Nat.lt_irrefl _ (hlt hcycle)

section
variable {α κ : Type} [DecidableEq α] [Ord κ] {nodes : List (α × κ)} {edges : List (α × α)}
  {order : List α}

/-- In an order of distinct nodes each edge leads to a larger index. -/
theorem idxOf_lt_of_topologicalOrder (hdistinct : (nodes.map (·.1)).Nodup)
    (h : topologicalOrder nodes edges = some order) {a b : α}
    (hab : Linked (nodes.map (·.1)) edges a b) : order.idxOf a < order.idxOf b :=
  idxOf_lt_of_sublist ((topologicalOrder_perm h).nodup_iff.2 hdistinct)
    (sublist_of_topologicalOrder h hab.1 hab.2.1 hab.2.2)

/-- Where there is an order of distinct nodes, no path returns to its start. -/
theorem not_transGen_of_topologicalOrder (hdistinct : (nodes.map (·.1)).Nodup)
    (h : topologicalOrder nodes edges = some order) (a : α) :
    ¬ TransGen (Linked (nodes.map (·.1)) edges) a a :=
  not_transGen_of_idxOf_lt (fun _ _ => idxOf_lt_of_topologicalOrder hdistinct h) a

/-- The search fails on distinct nodes exactly when the edges between them form a cycle. -/
theorem topologicalOrder_eq_none_iff (hdistinct : (nodes.map (·.1)).Nodup) :
    topologicalOrder nodes edges = none ↔
      ∃ a, TransGen (Linked (nodes.map (·.1)) edges) a a := by
  constructor
  · intro hnone
    by_contra hacyclic
    push Not at hacyclic
    obtain ⟨order, horder⟩ := exists_topologicalOrder nodes edges fun p hp =>
      have ⟨a, b, ha, hb, hpath⟩ := transGen_linked_of_positions hp
      have hab : a = b := Option.some.inj (ha.symm.trans hb)
      hacyclic b (hab ▸ hpath)
    rw [hnone] at horder
    cases horder
  · rintro ⟨a, hcycle⟩
    rw [Option.eq_none_iff_forall_ne_some]
    exact fun order horder => not_transGen_of_topologicalOrder hdistinct horder a hcycle

end

/-! ## Counters stay above zero -/

section
variable {κ : Type} [Ord κ]

/-- Takes one edge away from the counter of its target; `none` if the counter is zero. -/
def Frontier.release? (keys : List κ) (frontier : Frontier κ) (target : Nat) :
    Option (Frontier κ) :=
  match frontier.counters[target]? with
  | some (_ + 1) => some (frontier.release keys target)
  | _ => none

/-- The positions in the order in which they are taken; `none` if a counter would go below zero. -/
def take? (keys : List κ) (edges : List (Nat × Nat)) : Nat → Frontier κ → Option (List Nat)
  | 0, _ => some []
  | count + 1, frontier =>
    match frontier.ready with
    | [] => some []
    | (_, position) :: ready => do
      let frontier ←
        (targetsOf edges position).foldlM (Frontier.release? keys) { frontier with ready }
      return position :: (← take? keys edges count frontier)

variable {keys : List κ} {edges : List (Nat × Nat)} {taken due : List Nat} {frontier : Frontier κ}

/-- A target that is due has a counter above zero. -/
theorem Frontier.Tracks.release?_eq {t : Nat} (ht : t < keys.length)
    (h : frontier.Tracks keys edges taken (t :: due)) :
    frontier.release? keys t = some (frontier.release keys t) := by
  have hcounter : frontier.counters[t]? = some (openDegree edges taken t + due.count t + 1) := by
    rw [h.counter t ht, List.count_cons_self]
    rfl
  rw [Frontier.release?, hcounter]

/-- All due targets are released without a counter going below zero. -/
theorem Frontier.Tracks.releaseAll?_eq (hdue : ∀ t ∈ due, t < keys.length ∧ t ∉ taken)
    (h : frontier.Tracks keys edges taken due) :
    due.foldlM (Frontier.release? keys) frontier =
      some (due.foldl (Frontier.release keys) frontier) := by
  induction due generalizing frontier with
  | nil => rfl
  | cons t due ih =>
    obtain ⟨hlt, hnot⟩ := hdue t List.mem_cons_self
    rw [List.foldlM_cons, h.release?_eq hlt, List.foldl_cons]
    exact ih (fun u hu => hdue u (List.mem_cons_of_mem _ hu)) (h.release hnot)

/-- The search never takes an edge from a counter that is zero. -/
theorem take?_eq (hbound : ∀ edge ∈ edges, edge.2 < keys.length) (count : Nat) :
    ∀ {taken : List Nat} {frontier : Frontier κ}, frontier.Tracks keys edges taken [] →
      Closed edges taken →
      take? keys edges count frontier = some (Graph.take keys edges count frontier) := by
  induction count with
  | zero => intro _ _ _ _; rfl
  | succ count ih =>
    intro taken frontier h hclosed
    unfold take? Graph.take
    cases hready : frontier.ready with
    | nil => rfl
    | cons entry ready =>
      obtain ⟨key, p⟩ := entry
      obtain ⟨-, hp, hopen, -⟩ := h.ready (key, p) (hready ▸ List.mem_cons_self)
      have hdue : ∀ t ∈ targetsOf edges p, t < keys.length ∧ t ∉ p :: taken := fun t ht => by
        refine ⟨?_, h.target_notMem hclosed hready t ht⟩
        obtain ⟨edge, hedge, rfl⟩ := List.mem_map.1 ht
        exact hbound edge (List.mem_filter.1 hedge).1
      simp only [(h.pop hready).releaseAll?_eq hdue,
        ih (h.take hclosed hready) (hclosed.cons hp hopen), Option.bind_eq_bind, Option.bind_some,
        Option.pure_def]

/-- Edges between nodes lead to positions of the list. -/
theorem lt_of_mem_positionedEdges {α : Type} [DecidableEq α] {nodes : List α}
    {edges : List (α × α)} {edge : Nat × Nat} (h : edge ∈ positionedEdges nodes edges) :
    edge.2 < nodes.length :=
  have ⟨_, _, _, _, hj⟩ := exists_of_mem_positionedEdges h
  (List.getElem?_eq_some_iff.1 hj).1

end

/-! ## Exactness -/

variable {α κ : Type} [DecidableEq α] [Ord κ] {nodes : List (α × κ)} {edges : List (α × α)}

/-- For distinct nodes the search fails exactly when the edges between listed nodes form a cycle, an
order that it gives lists the same nodes with the source of each such edge before its target, and no
counter goes below zero on the way. -/
theorem topologicalOrder_exact (hdistinct : (nodes.map (·.1)).Nodup) :
    (topologicalOrder nodes edges = none ↔
      ∃ a, TransGen (Linked (nodes.map (·.1)) edges) a a) ∧
    (∀ order, topologicalOrder nodes edges = some order →
      order.Perm (nodes.map (·.1)) ∧
      ∀ a b, Linked (nodes.map (·.1)) edges a b → order.idxOf a < order.idxOf b) ∧
    let keys := nodes.map (·.2)
    let links := positionedEdges (nodes.map (·.1)) edges
    take? keys links nodes.length (Frontier.initial keys links) =
      some (take keys links nodes.length (Frontier.initial keys links)) := by
  refine ⟨topologicalOrder_eq_none_iff hdistinct, fun order horder => ?_, ?_⟩
  · exact ⟨topologicalOrder_perm horder, fun a b => idxOf_lt_of_topologicalOrder hdistinct horder⟩
  · refine take?_eq (fun edge hedge => ?_) nodes.length (tracks_initial _ _)
      (fun q hq => absurd hq List.not_mem_nil)
    simpa using lt_of_mem_positionedEdges hedge

/-- Three nodes with a repeated edge and an edge to an unlisted node: the order exists although the
counter of the last node starts at two. -/
theorem topologicalOrder_exact_of_repeated_edge :
    topologicalOrder [("c", 0), ("b", 1), ("a", 2)]
        [("a", "b"), ("a", "b"), ("b", "c"), ("c", "d")] = some ["a", "b", "c"] ∧
      ¬ ∃ a, TransGen (Linked ["c", "b", "a"]
        [("a", "b"), ("a", "b"), ("b", "c"), ("c", "d")]) a a := by
  have horder : topologicalOrder [("c", 0), ("b", 1), ("a", 2)]
      [("a", "b"), ("a", "b"), ("b", "c"), ("c", "d")] = some ["a", "b", "c"] := by
    decide +kernel
  refine ⟨horder, fun hcycle => ?_⟩
  have hdistinct : ([("c", 0), ("b", 1), ("a", 2)].map (·.1)).Nodup := by decide
  have hnone := (topologicalOrder_exact hdistinct).1.2 hcycle
  rw [horder] at hnone
  cases hnone

end SchemaMigration.Graph
