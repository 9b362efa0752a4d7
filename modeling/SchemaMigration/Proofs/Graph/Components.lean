import Mathlib.Data.List.Nodup
import Mathlib.Logic.Relation
import SchemaMigration.Graph.Components

/-!
# Cyclic components are the components

The search for what a node reaches keeps a list of nodes to visit. Every node that it has seen leads
only to nodes that were seen or are still to be visited, so with enough steps it ends with all that
is reachable (`mem_reachable`). The depth-first search lists every node once
(`nodup_finishOrder`, `mem_finishOrder`). A component is listed for the node of it that is finished
last, so each one of more than one node is listed (`exists_component_of_joined`), and what is listed
is a component (`isComponent_of_mem`).
-/

namespace SchemaMigration.Graph.Links

open Relation

variable {g : Links} {a b : Nat}

/-- An edge of a graph. -/
def Leads (g : Links) (a b : Nat) : Prop := (a, b) ∈ g.edges

/-- Two nodes that reach each other. -/
def Joined (g : Links) (a b : Nat) : Prop := TransGen g.Leads a b ∧ TransGen g.Leads b a

/-- All edges are between nodes of the graph. -/
def Within (g : Links) : Prop := ∀ edge ∈ g.edges, edge.1 < g.size ∧ edge.2 < g.size

/-- A node leads to its successors. -/
theorem mem_successors : b ∈ g.successors a ↔ g.Leads a b := by
  simp [successors, Leads]

/-- Joined nodes stay joined through a third one. -/
theorem Joined.trans {c : Nat} (hab : g.Joined a b) (hbc : g.Joined b c) : g.Joined a c :=
  ⟨hab.1.trans hbc.1, hbc.2.trans hab.2⟩

/-- Nodes that reach each other do so in both directions. -/
theorem Joined.symm (h : g.Joined a b) : g.Joined b a := ⟨h.2, h.1⟩

/-- A node from which an edge goes out is one of the graph. -/
theorem Within.lt_of_transGen (hg : g.Within) (h : TransGen g.Leads a b) : a < g.size := by
  induction h using TransGen.head_induction_on with
  | single hlast => exact (hg _ hlast).1
  | head hfirst => exact (hg _ hfirst).1

/-! ## Reachable nodes -/

/-- Whatever the search finds was seen before or is reached from a node to visit. -/
theorem explore_sound (fuel : Nat) : ∀ {seen todo : List Nat}, b ∈ g.explore fuel seen todo →
    b ∈ seen ∨ ∃ start ∈ todo, ReflTransGen g.Leads start b := by
  induction fuel with
  | zero => exact fun h => .inl h
  | succ fuel ih =>
    intro seen todo h
    cases todo with
    | nil => exact .inl h
    | cons node rest =>
      unfold explore at h
      split at h
      · refine (ih h).imp_right ?_
        rintro ⟨start, hstart, hreach⟩
        exact ⟨start, List.mem_cons_of_mem _ hstart, hreach⟩
      · rcases ih h with hseen | ⟨start, hstart, hreach⟩
        · rcases List.mem_cons.1 hseen with rfl | hseen
          · exact .inr ⟨b, List.mem_cons_self, .refl⟩
          · exact .inl hseen
        · rcases List.mem_append.1 hstart with hstart | hstart
          · exact .inr ⟨node, List.mem_cons_self, hreach.head (mem_successors.1 hstart)⟩
          · exact .inr ⟨start, List.mem_cons_of_mem _ hstart, hreach⟩

/-- The number of edges out of nodes that were not seen. -/
def unseenEdges (g : Links) (seen : List Nat) : Nat :=
  g.edges.countP fun edge => !seen.contains edge.1

/-- Seeing a node takes the edges out of it from those that were not seen. -/
theorem unseenEdges_cons {seen : List Nat} {node : Nat} (hnode : node ∉ seen) :
    g.unseenEdges (node :: seen) + (g.successors node).length = g.unseenEdges seen := by
  simp only [unseenEdges, successors, List.length_reverse, List.length_map]
  generalize g.edges = edges
  induction edges with
  | nil => rfl
  | cons edge edges ih =>
    simp only [List.countP_cons, List.filter_cons, List.contains_cons, beq_iff_eq,
      Bool.not_eq_true', Bool.or_eq_false_iff] at ih ⊢
    by_cases heq : edge.1 = node
    · simp_all
      omega
    · by_cases hin : edge.1 ∈ seen <;> simp_all
      omega

/-- With a step for every node to visit and for every edge out of a node that was not seen, the
search finds all that was seen or is to be visited, and all that this leads to. -/
theorem explore_closed (fuel : Nat) : ∀ seen todo : List Nat,
    todo.length + g.unseenEdges seen ≤ fuel →
    (∀ node ∈ seen, ∀ next, g.Leads node next → next ∈ seen ∨ next ∈ todo) →
    (∀ node, node ∈ seen ∨ node ∈ todo → node ∈ g.explore fuel seen todo) ∧
      ∀ node ∈ g.explore fuel seen todo, ∀ next, g.Leads node next →
        next ∈ g.explore fuel seen todo := by
  induction fuel with
  | zero =>
    intro seen todo hfuel hclosed
    obtain rfl : todo = [] := List.eq_nil_of_length_eq_zero (by omega)
    simpa [explore] using hclosed
  | succ fuel ih =>
    intro seen todo hfuel hclosed
    cases todo with
    | nil => simpa [explore] using hclosed
    | cons node rest =>
      unfold explore
      rw [List.length_cons] at hfuel
      split
      · next hseen =>
        have hseen : node ∈ seen := by simpa using hseen
        obtain ⟨hfound, hnext⟩ := ih seen rest (by omega)
          fun other hother next hleads => by
            rcases hclosed other hother next hleads with hin | hin
            · exact .inl hin
            · rcases List.mem_cons.1 hin with rfl | hin
              · exact .inl hseen
              · exact .inr hin
        refine ⟨fun other hother => hfound other ?_, hnext⟩
        rcases hother with hin | hin
        · exact .inl hin
        · rcases List.mem_cons.1 hin with rfl | hin
          · exact .inl hseen
          · exact .inr hin
      · next hseen =>
        have hseen : node ∉ seen := by simpa using hseen
        have hedges := unseenEdges_cons (g := g) hseen
        obtain ⟨hfound, hnext⟩ := ih (node :: seen) (g.successors node ++ rest)
          (by rw [List.length_append]; omega) fun other hother next hleads => by
            rcases List.mem_cons.1 hother with rfl | hother
            · exact .inr (List.mem_append_left _ (mem_successors.2 hleads))
            · rcases hclosed other hother next hleads with hin | hin
              · exact .inl (List.mem_cons_of_mem _ hin)
              · rcases List.mem_cons.1 hin with rfl | hin
                · exact .inl List.mem_cons_self
                · exact .inr (List.mem_append_right _ hin)
        refine ⟨fun other hother => hfound other ?_, hnext⟩
        rcases hother with hin | hin
        · exact .inl (List.mem_cons_of_mem _ hin)
        · rcases List.mem_cons.1 hin with rfl | hin
          · exact .inl List.mem_cons_self
          · exact .inr (List.mem_append_right _ hin)

/-- The reachable nodes are those that a chain of edges leads to. -/
theorem mem_reachable : b ∈ g.reachable a ↔ TransGen g.Leads a b := by
  constructor
  · intro h
    rcases explore_sound _ h with hin | ⟨start, hstart, hreach⟩
    · cases hin
    · exact .head' (mem_successors.1 hstart) hreach
  · intro h
    have hlength : (g.successors a).length ≤ g.edges.length := by
      simpa [successors] using List.length_filter_le _ g.edges
    have hcount : g.unseenEdges [] ≤ g.edges.length := List.countP_le_length
    obtain ⟨hfound, hnext⟩ := explore_closed (g := g) (2 * g.edges.length) []
      (g.successors a) (by omega) fun _ hin => absurd hin List.not_mem_nil
    induction h with
    | single hleads => exact hfound _ (.inr (mem_successors.2 hleads))
    | tail _ hleads ih => exact hnext _ ih _ hleads

/-! ## Depth-first search -/

/-- What is finished was entered and is finished once. -/
structure Search.Sound (s : Search) : Prop where
  entered : s.finished ⊆ s.entered
  nodup : s.finished.Nodup

/-- A search that another one went on to: what it entered since then, it has finished. -/
structure Search.Advances (s next : Search) : Prop where
  entered : s.entered ⊆ next.entered
  kept : s.finished ⊆ next.finished
  done : ∀ node ∈ next.entered, node ∈ s.entered ∨ node ∈ next.finished
  fresh : ∀ node ∈ next.finished, node ∈ s.finished ∨ node ∉ s.entered

/-- A search that did nothing. -/
theorem Search.Advances.refl (s : Search) : s.Advances s :=
  ⟨List.Subset.refl _, List.Subset.refl _, fun _ => .inl, fun _ => .inl⟩

/-- A search in two stages. -/
theorem Search.Advances.trans {s next last : Search} (h : s.Advances next)
    (h' : next.Advances last) : s.Advances last where
  entered := List.Subset.trans h.entered h'.entered
  kept := List.Subset.trans h.kept h'.kept
  done node hnode := (h'.done node hnode).elim
    (fun hin => (h.done node hin).imp_right (h'.kept ·)) .inr
  fresh node hnode := (h'.fresh node hnode).elim (h.fresh node)
    fun hnot => .inr fun hin => hnot (h.entered hin)

/-- Entering a node that was not entered and finishing it after what was done in between. -/
theorem Search.Sound.finish {s inner : Search} {node : Nat} (hs : s.Sound)
    (hnode : node ∉ s.entered)
    (hinner : inner.Sound)
    (hadvances : Search.Advances { s with entered := node :: s.entered } inner) :
    Search.Sound { inner with finished := node :: inner.finished } ∧
      s.Advances { inner with finished := node :: inner.finished } := by
  have hentered : node ∈ inner.entered := hadvances.entered List.mem_cons_self
  have hnot : node ∉ inner.finished := fun hin => by
    rcases hadvances.fresh node hin with hfinished | hfresh
    · exact hnode (hs.entered hfinished)
    · exact hfresh List.mem_cons_self
  refine ⟨⟨List.cons_subset.2 ⟨hentered, hinner.entered⟩, List.nodup_cons.2 ⟨hnot, hinner.nodup⟩⟩,
    fun other hother => hadvances.entered (List.mem_cons_of_mem _ hother),
    fun other hother => List.mem_cons_of_mem _ (hadvances.kept hother), fun other hother => ?_,
    fun other hother => ?_⟩
  · rcases hadvances.done other hother with hin | hin
    · rcases List.mem_cons.1 hin with rfl | hin
      · exact .inr List.mem_cons_self
      · exact .inl hin
    · exact .inr (List.mem_cons_of_mem _ hin)
  · rcases List.mem_cons.1 hother with rfl | hother
    · exact .inr hnode
    · exact (hadvances.fresh other hother).imp_right
        fun hfresh hin => hfresh (List.mem_cons_of_mem _ hin)

/-- Visiting nodes keeps a search sound and lets it advance. -/
theorem visit_spec (fuel : Nat) :
    (∀ {s : Search} (node : Nat), s.Sound →
      (g.visit fuel s node).Sound ∧ s.Advances (g.visit fuel s node)) ∧
    ∀ {s : Search} (nodes : List Nat), s.Sound →
      (g.visitAll fuel s nodes).Sound ∧ s.Advances (g.visitAll fuel s nodes) := by
  induction fuel with
  | zero => exact ⟨fun _ hs => ⟨hs, .refl _⟩, fun _ hs => ⟨hs, .refl _⟩⟩
  | succ fuel ih =>
    constructor
    · intro s node hs
      unfold visit
      split
      · exact ⟨hs, .refl s⟩
      · next hnode =>
        have hnode : node ∉ s.entered := by simpa using hnode
        have hstart : Search.Sound { s with entered := node :: s.entered } :=
          ⟨fun _ hin => List.mem_cons_of_mem _ (hs.entered hin), hs.nodup⟩
        obtain ⟨hinner, hadvances⟩ := ih.2 (g.successors node) hstart
        exact hs.finish hnode hinner hadvances
    · intro s nodes hs
      cases nodes with
      | nil => exact ⟨hs, .refl s⟩
      | cons node rest =>
        obtain ⟨hvisited, hfirst⟩ := ih.1 node hs
        obtain ⟨hrest, hadvances⟩ := ih.2 rest hvisited
        exact ⟨hrest, hfirst.trans hadvances⟩

/-- Visiting a node enters it. -/
theorem mem_entered_visit (fuel : Nat) (s : Search) (node : Nat) (hs : s.Sound) :
    node ∈ (g.visit (fuel + 1) s node).entered := by
  unfold visit
  split
  · next hnode => simpa using hnode
  · have hstart : Search.Sound { s with entered := node :: s.entered } :=
      ⟨fun _ hin => List.mem_cons_of_mem _ (hs.entered hin), hs.nodup⟩
    exact ((visit_spec fuel).2 (g.successors node) hstart).2.entered List.mem_cons_self

/-- Visiting nodes, with a step for each and one more, enters all of them. -/
theorem subset_entered_visitAll (nodes : List Nat) : ∀ (fuel : Nat) {s : Search}, s.Sound →
    nodes.length < fuel → nodes ⊆ (g.visitAll fuel s nodes).entered := by
  induction nodes with
  | nil => exact fun _ _ _ _ => List.nil_subset _
  | cons node rest ih =>
    intro fuel s hs hfuel
    rw [List.length_cons] at hfuel
    obtain ⟨fuel, rfl⟩ : ∃ n, fuel = n + 2 := ⟨fuel - 2, by omega⟩
    have hvisited := ((visit_spec (g := g) (fuel + 1)).1 node hs).1
    refine List.cons_subset.2 ⟨?_, ih _ hvisited (by omega)⟩
    exact ((visit_spec (fuel + 1)).2 rest hvisited).2.entered (mem_entered_visit fuel s node hs)

/-- The state of a search before it starts is sound. -/
theorem sound_start : Search.Sound ⟨[], []⟩ := ⟨List.Subset.refl _, List.nodup_nil⟩

/-- No node is finished twice. -/
theorem nodup_finishOrder : g.finishOrder.Nodup := by
  rw [finishOrder, List.nodup_reverse]
  exact ((visit_spec _).2 _ sound_start).1.nodup

/-- Every node is finished. -/
theorem mem_finishOrder (ha : a < g.size) : a ∈ g.finishOrder := by
  rw [finishOrder, List.mem_reverse]
  have hentered := subset_entered_visitAll (g := g) (List.range g.size)
    (2 * (g.edges.length + g.size) + 2) sound_start (by rw [List.length_range]; omega)
  refine (((visit_spec _).2 _ sound_start).2.done a
    (hentered (List.mem_range.2 ha))).resolve_left List.not_mem_nil

/-! ## Components -/

/-- A largest list of more than one node that all reach each other. -/
structure IsComponent (g : Links) (component : List Nat) : Prop where
  size : 1 < component.length
  nodup : component.Nodup
  joined : ∀ a ∈ component, ∀ b, b ∈ component ↔ g.Joined a b

/-- A list of more than one element that holds each once has one beside any other. -/
theorem exists_mem_ne {α : Type} [DecidableEq α] {l : List α} (hsize : 1 < l.length)
    (hnodup : l.Nodup) (x : α) : ∃ y ∈ l, y ≠ x := by
  match l, hsize with
  | y :: z :: _, _ =>
    by_cases hy : y = x
    · refine ⟨z, by simp, fun hz => ?_⟩
      rw [hy, hz] at hnodup
      simp at hnodup
    · exact ⟨y, by simp, hy⟩

/-- Whether two nodes are found to reach each other. -/
def joins (g : Links) (a b : Nat) : Bool :=
  (((List.range g.size).map g.reachable).getD a []).contains b &&
    (((List.range g.size).map g.reachable).getD b []).contains a

/-- The nodes that are found to be joined with one, in the order in which they are finished. -/
def componentOf (g : Links) (a : Nat) : List Nat :=
  g.finishOrder.filter fun b => a == b || g.joins a b

/-- Nodes of the graph are found to reach each other if they do. -/
theorem joins_iff (hg : g.Within) : g.joins a b = true ↔ g.Joined a b := by
  have hreaches : ∀ a b, (((List.range g.size).map g.reachable).getD a []).contains b = true ↔
      TransGen g.Leads a b := by
    intro a b
    rw [List.getD_eq_getElem?_getD, List.getElem?_map, List.contains_iff_mem]
    by_cases ha : a < g.size
    · rw [List.getElem?_range ha]
      exact mem_reachable
    · rw [List.getElem?_eq_none (by simpa using ha)]
      exact ⟨fun h => absurd h List.not_mem_nil, fun h => absurd (hg.lt_of_transGen h) ha⟩
  rw [joins, Bool.and_eq_true, hreaches, hreaches, Joined]

/-- The nodes that are found to be joined with one are those that are, and itself. -/
theorem mem_componentOf (hg : g.Within) :
    b ∈ g.componentOf a ↔ b ∈ g.finishOrder ∧ (b = a ∨ g.Joined a b) := by
  rw [componentOf, List.mem_filter, Bool.or_eq_true, joins_iff hg, beq_iff_eq, eq_comm]

/-- Joined nodes have one component. -/
theorem componentOf_eq_of_joined (hg : g.Within) (h : g.Joined a b) :
    g.componentOf b = g.componentOf a := by
  refine List.filter_congr fun c _ => ?_
  rw [Bool.eq_iff_iff]
  simp only [Bool.or_eq_true, joins_iff hg, beq_iff_eq]
  constructor
  · rintro (rfl | hc)
    · exact .inr h
    · exact .inr (h.trans hc)
  · rintro (rfl | hc)
    · exact .inr h.symm
    · exact .inr (h.symm.trans hc)

/-- A component is listed for the node of it that is finished last. -/
theorem mem_cyclicComponents {component : List Nat} :
    component ∈ g.cyclicComponents ↔ ∃ a ∈ g.finishOrder, g.componentOf a = component ∧
      1 < component.length ∧ component.getLast? = some a := by
  simp only [cyclicComponents, List.mem_filterMap, List.mem_map]
  constructor
  · rintro ⟨_, ⟨a, ha, rfl⟩, h⟩
    split at h
    · next hcond =>
      obtain rfl := Option.some.inj h
      simp only [Bool.and_eq_true, decide_eq_true_eq, beq_iff_eq] at hcond
      exact ⟨a, ha, rfl, hcond⟩
    · cases h
  · rintro ⟨a, ha, rfl, hsize, hlast⟩
    refine ⟨(a, g.componentOf a), ⟨a, ha, rfl⟩, if_pos ?_⟩
    simp [hsize, hlast]

/-- What is listed is a component. -/
theorem isComponent_of_mem (hg : g.Within) {component : List Nat}
    (h : component ∈ g.cyclicComponents) : g.IsComponent component := by
  obtain ⟨a, -, rfl, hsize, -⟩ := mem_cyclicComponents.1 h
  have hnodup : (g.componentOf a).Nodup := nodup_finishOrder.filter _
  -- Another node of the component leads back, so a node is joined with itself.
  have hself : g.Joined a a := by
    obtain ⟨b, hb, hne⟩ := exists_mem_ne hsize hnodup a
    have hjoined := ((mem_componentOf hg).1 hb).2.resolve_left hne
    exact hjoined.trans hjoined.symm
  have hmem : ∀ c, c ∈ g.componentOf a ↔ g.Joined a c := by
    intro c
    rw [mem_componentOf hg]
    constructor
    · rintro ⟨-, rfl | hc⟩
      · exact hself
      · exact hc
    · exact fun hc => ⟨mem_finishOrder (hg.lt_of_transGen hc.2), .inr hc⟩
  refine ⟨hsize, hnodup, fun b hb c => ?_⟩
  rw [hmem] at hb ⊢
  exact ⟨hb.symm.trans, hb.trans⟩

/-- If two nodes reach each other there is a component. -/
theorem exists_component_of_joined (hg : g.Within) (hne : a ≠ b) (h : g.Joined a b) :
    g.cyclicComponents ≠ [] := by
  have hmem : ∀ {c}, g.Joined a c → c ∈ g.componentOf a := fun {c} hc =>
    (mem_componentOf hg).2 ⟨mem_finishOrder (hg.lt_of_transGen hc.2), .inr hc⟩
  have ha := hmem (h.trans h.symm)
  have hsize : 1 < (g.componentOf a).length := by
    by_contra hle
    have hpos := List.length_pos_of_mem ha
    obtain ⟨c, hc⟩ := List.length_eq_one_iff.1 (show (g.componentOf a).length = 1 by omega)
    have hb := hmem h
    rw [hc, List.mem_singleton] at ha hb
    exact hne (ha.trans hb.symm)
  -- The last node of the component stands for it.
  obtain ⟨last, hlast⟩ : ∃ last, (g.componentOf a).getLast? = some last :=
    ⟨_, List.getLast?_eq_some_getLast (List.ne_nil_of_mem ha)⟩
  have hlastMem := (mem_componentOf hg).1 (List.mem_of_getLast? hlast)
  refine List.ne_nil_of_mem (a := g.componentOf a)
    (mem_cyclicComponents.2 ⟨last, hlastMem.1, ?_, hsize, hlast⟩)
  rcases hlastMem.2 with rfl | hjoined
  · rfl
  · exact componentOf_eq_of_joined hg hjoined

end SchemaMigration.Graph.Links
