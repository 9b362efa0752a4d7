import SchemaMigration.Proofs.Migration.RemovalOrder
import SchemaMigration.Proofs.Plan.Detachment

/-!
# Cycles of migrations

Breaking cycles comes to an end for every plan, with a graph that has an order
(`Migration.cycle_breaking_ends`): each round gives up something that was not given up before, so
rounds that change nothing do not occur and their number need not be counted, and a graph without
cyclic components has no cycle at all. The migration of a plan fails only if breaking its cycles
does.
-/

namespace SchemaMigration

namespace Migration

open Staging

/-- A graph that breaking cycles ends with can be put in order: it has no component of more than one
step, no precedence of a step and itself, and so no cycle. -/
theorem ordered_of_acyclicGraph {plan : Plan} {extra : ExtraDependencies} (hplan : plan.Distinct)
    {graph : StepGraph} {breaks : Breaks} (h : acyclicGraph { plan, extra } = .ok (graph, breaks)) :
    (∀ component, ¬ graph.IsComponent component) ∧
      (∀ p ∈ graph.precedences, p.earlier ≠ p.later) ∧ graph.Acyclic ∧
      ∃ order, graph.sorted? = some order := by
  obtain ⟨hgraph, hnil, -⟩ := acyclicGraph_eq_ok h
  have hsound : graph.Sound := sound_of_stepGraph (by exact hplan) hgraph
  have hacyclic := hsound.acyclic_of_cyclicComponents hnil
  refine ⟨fun component hcomponent => ?_, hsound.apart, hacyclic,
    StepGraph.exists_sorted hsound.apart hnil⟩
  obtain ⟨key, hkey⟩ := List.exists_mem_of_length_pos (Nat.zero_lt_of_lt hcomponent.size)
  exact hacyclic key ((hcomponent.joined key hkey key).1 hkey).1

/-- **Breaking cycles ends.** Each round detaches a constraint that was not detached before or
severs a pair of steps that was not severed before, and takes nothing back. So breaking cycles gives
what it gives when nobody counts the rounds and nobody looks whether they change anything. A graph
that it gives has no cycle, so its steps can be put in order, and the migration of a plan that
expands to this one fails only if breaking its cycles does. -/
theorem cycle_breaking_ends {plan : Plan} (hplan : plan.Distinct) (extra : ExtraDependencies) :
    (∀ breaks next, Round { plan, extra } breaks next → breaks.Gains next ∧ breaks.Within next) ∧
    (∀ result, Breaking { plan, extra } {} result ↔ acyclicGraph { plan, extra } = result) ∧
    (∀ graph breaks, acyclicGraph { plan, extra } = .ok (graph, breaks) →
      (∀ component, ¬ graph.IsComponent component) ∧
        (∀ p ∈ graph.precedences, p.earlier ≠ p.later) ∧ graph.Acyclic ∧
        ∃ order, graph.sorted? = some order) ∧
    ∀ start fault, Plan.expand start extra.old = plan → ofPlan start extra = .error fault →
      acyclicGraph { plan, extra } = .error fault := by
  refine ⟨fun _ _ hround => hround.gains, fun result => ⟨?_, ?_⟩,
    fun graph breaks h => ordered_of_acyclicGraph hplan h, ?_⟩
  · exact breaking_acyclicGraph.unique
  · rintro rfl
    exact breaking_acyclicGraph
  · rintro start fault rfl h
    simp only [ofPlan] at h
    cases hacyclic : acyclicGraph { plan := start.expand extra.old, extra } with
    | error e =>
      rw [hacyclic] at h
      rw [Except.error.inj h]
    | ok found =>
      obtain ⟨graph, breaks⟩ := found
      obtain ⟨-, -, -, order, horder⟩ := ordered_of_acyclicGraph hplan hacyclic
      rw [hacyclic, ok_bind] at h
      simp only [horder] at h
      cases h

namespace MutualKeys

/-- The schema before its two tables are created. -/
def blank : Snapshot where
  dialect := .postgres
  statements :=
    [{ id := .database, parent := none, definition := .database, children := [⟨.schema, ["a"]⟩] },
     { id := ⟨.schema, ["a"]⟩, parent := some .database, definition := .schema {} }]
  fingerprints := []

/-- Both tables are created. -/
def created : List Element := [⟨table "s", .onlyNew⟩, ⟨table "t", .onlyNew⟩]

/-- Two new tables that refer to each other can be put in order once their foreign keys are
detached. -/
theorem foreignKeys_detached :
    ∃ plan, Plan.ofElements blank (snapshot none) created = .ok plan ∧
      ∃ graph breaks, acyclicGraph { plan := plan.expand [] } = .ok (graph, breaks) ∧
        breaks.detached = [foreignKey "s", foreignKey "t"] ∧
        ∃ order, graph.sorted? = some order := by
  obtain ⟨plan, hplan, htest⟩ := exists_ok_of_test (p := fun plan : Plan =>
      (acyclicGraph { plan := plan.expand [] }).toOption.any
        fun found : StepGraph × Breaks =>
          decide (found.2.detached = [foreignKey "s", foreignKey "t"]))
    (show (Plan.ofElements blank (snapshot none) created).toOption.any _ = true by decide +kernel)
  obtain ⟨⟨graph, breaks⟩, hacyclic, hdetached⟩ := exists_ok_of_test htest
  have hinitial := (Plan.initial_of_ofElements (by decide +kernel) (by decide +kernel) hplan).1
  have hends := cycle_breaking_ends (hinitial.proper_expand []).distinct {}
  exact ⟨plan, hplan, graph, breaks, hacyclic, of_decide_eq_true hdetached,
    (hends.2.2.1 graph breaks hacyclic).2.2.2⟩

end MutualKeys

end Migration

end SchemaMigration
