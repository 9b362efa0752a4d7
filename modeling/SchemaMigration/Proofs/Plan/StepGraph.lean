import SchemaMigration.Plan.Step
import SchemaMigration.Proofs.Graph.Canonical
import SchemaMigration.Proofs.Graph.Components

/-!
# Graphs of steps

What is known of the positions of a graph is known of its steps, since no two of them have one key
and precedences are between steps (`StepGraph.Sound`): what the graph lists as its cyclic components
are the components of its steps (`StepGraph.isComponent_of_mem`), without any the precedences form
no cycle (`StepGraph.acyclic_of_cyclicComponents`), and then the steps can be put in order
(`StepGraph.exists_sorted`). That order is the smallest by priority and then by place in the graph
(`StepGraph.Sound.sorted?_eq_some_iff`).
-/

namespace SchemaMigration

/-- Priorities are compared by rank and then by order. -/
theorem Priority.compare_eq (a b : Priority) :
    compare a b = compareLex (compareOn Priority.rank) (compareOn Priority.order) a b := by
  unfold compare instOrdPriority
  simp [instOrdPriority.ord, compareLex, compareOn]

instance : Std.TransOrd Priority := by
  have hcompare : (compare : Priority → Priority → Ordering) =
      compareLex (compareOn Priority.rank) (compareOn Priority.order) := by
    funext a b
    exact Priority.compare_eq a b
  rw [Std.TransOrd, hcompare]
  infer_instance

namespace StepGraph

open Relation

variable {graph : StepGraph} {a b : StepKey}

/-- One step comes before another one by a precedence. -/
def Before (graph : StepGraph) (a b : StepKey) : Prop :=
  ∃ reason, ⟨a, b, reason⟩ ∈ graph.precedences

/-- One step comes before another one by a precedence that does not run through a pass-through
step. -/
def BeforeDirectly (graph : StepGraph) (a b : StepKey) : Prop :=
  graph.Before a b ∧ a.kind ≠ .passThrough ∧ b.kind ≠ .passThrough

/-- No chain of precedences leads from a step back to it. -/
def Acyclic (graph : StepGraph) : Prop := ∀ key, ¬ TransGen graph.Before key key

/-- A largest list of more than one step that all come before each other. -/
structure IsComponent (graph : StepGraph) (component : List StepKey) : Prop where
  size : 1 < component.length
  nodup : component.Nodup
  joined : ∀ a ∈ component, ∀ b, b ∈ component ↔
    TransGen graph.Before a b ∧ TransGen graph.Before b a

/-- No two steps have one key, and precedences are between two steps of the graph. -/
structure Sound (graph : StepGraph) : Prop where
  nodup : graph.keys.Nodup
  within : ∀ p ∈ graph.precedences, p.earlier ∈ graph.keys ∧ p.later ∈ graph.keys
  apart : ∀ p ∈ graph.precedences, p.earlier ≠ p.later

/-- The precedences as pairs. -/
theorem mem_pairs : (a, b) ∈ graph.pairs ↔ graph.Before a b := by
  simp only [pairs, List.mem_map, Before, Prod.mk.injEq]
  constructor
  · rintro ⟨⟨_, _, reason⟩, hp, rfl, rfl⟩
    exact ⟨reason, hp⟩
  · rintro ⟨reason, hp⟩
    exact ⟨_, hp, rfl, rfl⟩

/-- The precedences inside a component. -/
theorem mem_inside {component : List StepKey} {p : Precedence} : p ∈ graph.inside component ↔
    p ∈ graph.precedences ∧ p.earlier ∈ component ∧ p.later ∈ component := by
  simp [inside]

/-- A chain of precedences between two steps of a component stays in it. -/
theorem IsComponent.transGen_inside {component : List StepKey} (h : graph.IsComponent component)
    (ha : a ∈ component) (hb : b ∈ component) (hab : TransGen graph.Before a b) :
    TransGen (fun a b => ∃ p ∈ graph.inside component, p.earlier = a ∧ p.later = b) a b := by
  induction hab using TransGen.head_induction_on with
  | single hab =>
    obtain ⟨reason, hp⟩ := hab
    exact .single ⟨_, mem_inside.2 ⟨hp, ha, hb⟩, rfl, rfl⟩
  | @head a middle hfirst hrest ih =>
    -- The chain leads on to `b`, from where another one leads back.
    have hmiddle : middle ∈ component :=
      (h.joined a ha middle).2 ⟨.single hfirst, hrest.trans ((h.joined a ha b).1 hb).2⟩
    obtain ⟨reason, hp⟩ := hfirst
    exact .head ⟨_, mem_inside.2 ⟨hp, ha, hmiddle⟩, rfl, rfl⟩ (ih hmiddle)

/-- The edges between positions are between positions of the graph. -/
theorem within_links : graph.links.Within := by
  rintro ⟨i, j⟩ hedge
  obtain ⟨_, _, -, hi, hj⟩ := Graph.exists_of_mem_positionedEdges hedge
  have hlen : graph.keys.length = graph.links.size := List.length_map _
  exact ⟨hlen ▸ (List.getElem?_eq_some_iff.1 hi).1, hlen ▸ (List.getElem?_eq_some_iff.1 hj).1⟩

/-- Edges between positions are precedences between the steps there. -/
theorem exists_before_of_leads {i j : Nat} (h : graph.links.Leads i j) :
    ∃ a b, graph.keys[i]? = some a ∧ graph.keys[j]? = some b ∧ graph.Before a b := by
  obtain ⟨a, b, hab, hi, hj⟩ := Graph.exists_of_mem_positionedEdges h
  exact ⟨a, b, hi, hj, mem_pairs.1 hab⟩

/-- Without a cyclic component and without a precedence of a step and itself, no chain of edges
leads from a position back to it. -/
theorem acyclic_links (hapart : ∀ p ∈ graph.precedences, p.earlier ≠ p.later)
    (hnil : graph.cyclicComponents = []) (i : Nat) : ¬ TransGen graph.links.Leads i i := by
  intro hcycle
  obtain ⟨j, hij, hji⟩ : ∃ j, graph.links.Leads i j ∧ ReflTransGen graph.links.Leads j i :=
    TransGen.head'_iff.1 hcycle
  have hne : i ≠ j := by
    rintro rfl
    obtain ⟨a, b, hi, hj, reason, hp⟩ := exists_before_of_leads hij
    exact hapart _ hp (Option.some.inj (hi.symm.trans hj))
  have hback : TransGen graph.links.Leads j i :=
    (reflTransGen_iff_eq_or_transGen.1 hji).resolve_left hne
  refine Graph.Links.exists_component_of_joined within_links hne ⟨.single hij, hback⟩ ?_
  simpa [cyclicComponents] using hnil

/-- Without cycles the steps can be put in order. -/
theorem exists_sorted (hapart : ∀ p ∈ graph.precedences, p.earlier ≠ p.later)
    (hnil : graph.cyclicComponents = []) : ∃ order, graph.sorted? = some order := by
  refine Graph.exists_topologicalOrder _ _ fun i => ?_
  rw [List.map_map]
  exact acyclic_links hapart hnil i

namespace Sound

variable (h : graph.Sound)
include h

/-- The position of a step is the only one that holds it. -/
theorem position_unique {i j : Nat} (hi : graph.keys[i]? = some a) (hj : graph.keys[j]? = some a) :
    i = j :=
  (List.getElem?_inj (List.getElem?_eq_some_iff.1 hi).1 h.nodup).1 (hi.trans hj.symm)

/-- Precedences between steps are edges between their positions. -/
theorem exists_leads_of_before (hab : graph.Before a b) {i : Nat} (hi : graph.keys[i]? = some a) :
    ∃ j, graph.keys[j]? = some b ∧ graph.links.Leads i j := by
  obtain ⟨reason, hp⟩ := hab
  obtain ⟨ha, hb⟩ := h.within _ hp
  obtain ⟨i', j, hedge, hi', hj⟩ :=
    Graph.exists_mem_positionedEdges (mem_pairs.2 ⟨reason, hp⟩) ha hb
  exact ⟨j, hj, h.position_unique hi hi' ▸ hedge⟩

/-- Chains of precedences are chains of edges between positions. -/
theorem exists_chain_of_before (hab : TransGen graph.Before a b) {i : Nat}
    (hi : graph.keys[i]? = some a) :
    ∃ j, graph.keys[j]? = some b ∧ TransGen graph.links.Leads i j := by
  induction hab with
  | single hab =>
    obtain ⟨j, hj, hij⟩ := h.exists_leads_of_before hab hi
    exact ⟨j, hj, .single hij⟩
  | tail _ hbc ih =>
    obtain ⟨j, hj, hij⟩ := ih
    obtain ⟨k, hk, hjk⟩ := h.exists_leads_of_before hbc hj
    exact ⟨k, hk, hij.tail hjk⟩

omit h in
/-- Chains of edges between positions are chains of precedences. -/
theorem exists_before_of_chain {i j : Nat} (hij : TransGen graph.links.Leads i j)
    (hi : graph.keys[i]? = some a) : ∃ b, graph.keys[j]? = some b ∧ TransGen graph.Before a b := by
  induction hij with
  | single hij =>
    obtain ⟨a', b, hi', hj, hab⟩ := exists_before_of_leads hij
    obtain rfl := Option.some.inj (hi.symm.trans hi')
    exact ⟨b, hj, .single hab⟩
  | tail _ hjk ih =>
    obtain ⟨b, hj, hab⟩ := ih
    obtain ⟨b', c, hj', hk, hbc⟩ := exists_before_of_leads hjk
    obtain rfl := Option.some.inj (hj.symm.trans hj')
    exact ⟨c, hk, hab.tail hbc⟩

/-- Steps come before each other if their positions are joined. -/
theorem joined_iff {i j : Nat} (hi : graph.keys[i]? = some a) (hj : graph.keys[j]? = some b) :
    graph.links.Joined i j ↔ TransGen graph.Before a b ∧ TransGen graph.Before b a := by
  have hchain : ∀ {i j a b}, graph.keys[i]? = some a → graph.keys[j]? = some b →
      (TransGen graph.links.Leads i j ↔ TransGen graph.Before a b) := by
    intro i j a b hi hj
    constructor
    · intro hij
      obtain ⟨b', hj', hab⟩ := exists_before_of_chain hij hi
      rwa [Option.some.inj (hj.symm.trans hj')]
    · intro hab
      obtain ⟨j', hj', hij⟩ := h.exists_chain_of_before hab hi
      rwa [h.position_unique hj hj']
  exact and_congr (hchain hi hj) (hchain hj hi)

/-- What a graph lists as a cyclic component is one. -/
theorem isComponent_of_mem {component : List StepKey} (hc : component ∈ graph.cyclicComponents) :
    graph.IsComponent component := by
  obtain ⟨positions, hpositions, rfl⟩ := List.mem_map.1 hc
  have hcomponent := Graph.Links.isComponent_of_mem within_links hpositions
  have hlen : graph.keys.length = graph.links.size := List.length_map _
  -- All positions are those of steps.
  have hheld : ∀ i ∈ positions, ∃ a, graph.keys[i]? = some a := fun i hi => by
    have hlt := within_links.lt_of_transGen ((hcomponent.joined i hi i).1 hi).1
    exact ⟨graph.keys[i], List.getElem?_eq_getElem (hlen ▸ hlt)⟩
  refine ⟨?_, ?_, fun a ha b => ?_⟩
  · have hmap : positions.filterMap (graph.keys[·]?) =
        positions.map fun i => (graph.keys[i]?).getD default := by
      rw [← List.filterMap_eq_map]
      refine List.filterMap_congr fun i hi => ?_
      obtain ⟨a, ha⟩ := hheld i hi
      simp [ha]
    rw [hmap, List.length_map]
    exact hcomponent.size
  · exact hcomponent.nodup.filterMap fun i j a hi hj => h.position_unique hi hj
  · obtain ⟨i, hi, hia⟩ := List.mem_filterMap.1 ha
    rw [List.mem_filterMap]
    constructor
    · rintro ⟨j, hj, hjb⟩
      exact (h.joined_iff hia hjb).1 ((hcomponent.joined i hi j).1 hj)
    · rintro ⟨hab, hba⟩
      obtain ⟨j, hjb, -⟩ := h.exists_chain_of_before hab hia
      exact ⟨j, (hcomponent.joined i hi j).2 ((h.joined_iff hia hjb).2 ⟨hab, hba⟩), hjb⟩

/-- Without cyclic components the precedences form no cycle. -/
theorem acyclic_of_cyclicComponents (hnil : graph.cyclicComponents = []) : graph.Acyclic := by
  intro key hcycle
  obtain ⟨_, ⟨reason, hp⟩, -⟩ := TransGen.head'_iff.1 hcycle
  obtain ⟨i, hlt, rfl⟩ := List.getElem_of_mem (h.within _ hp).1
  have hi := List.getElem?_eq_getElem hlt
  obtain ⟨j, hj, hij⟩ := h.exists_chain_of_before hcycle hi
  rw [h.position_unique hi hj] at hij
  exact acyclic_links h.apart hnil j hij

/-- The steps are put in the order that is the smallest, by priority and then by place in the graph,
of all orders that respect the precedences. -/
theorem sorted?_eq_some_iff {order : List StepKey} :
    graph.sorted? = some order ↔
      Graph.Arranges graph.keys graph.pairs order ∧
        ∀ other, Graph.Arranges graph.keys graph.pairs other → other ≠ order →
          Graph.compareOrders (graph.steps.map fun step => (step.key, step.priority))
            order other = .lt := by
  have hkeys : (graph.steps.map fun step => (step.key, step.priority)).map (·.1) = graph.keys := by
    rw [List.map_map]
    rfl
  have hdistinct := h.nodup
  rw [← hkeys] at hdistinct ⊢
  exact Graph.topologicalOrder_eq_some_iff hdistinct

end Sound

end StepGraph

end SchemaMigration
