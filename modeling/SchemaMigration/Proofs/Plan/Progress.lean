import Mathlib.Computability.StateTransition
import SchemaMigration.Proofs.Plan.Expansion

/-!
# Expansion moves forward

In an expansion two loops feed each other: what is queued brings other objects into the plan, and so
do the children of what is recreated. A round of either is a step, and `StateTransition.eval` makes
steps for as long as there is one. It ends from every plan that has one entry for each identity,
whatever depends on what (`Plan.expand_moves_forward`). No change enters the queue twice: what was
queued is in the plan from then on, and what was queued since it goes away is never altered again
(`Plan.History`).
-/

namespace SchemaMigration

/-! ## What has entered the queue -/

namespace Plan

variable {plan next : Plan} {extra : List DependencyPair} {id : ObjectId} {entered : List Change}

/-- Changes that have entered the queue, each of them once. What has entered it is in the plan, and
is not altered if it goes away. -/
structure History (plan : Plan) (entered : List Change) : Prop where
  nodup : entered.Nodup
  entry : ∀ {id trigger}, (id, trigger) ∈ entered → ∃ entry, plan.get? id = some entry ∧
    (trigger = .removal → entry.treatment.alters = false)

/-- A plan that has advanced has the same history. -/
theorem Advances.history (h : plan.Advances next) (hplan : plan.History entered) :
    next.History entered := by
  refine ⟨hplan.nodup, fun {id trigger} hentered => ?_⟩
  obtain ⟨entry, hentry, halters⟩ := hplan.entry hentered
  obtain ⟨later, hlater, -, rfl | ⟨-, hrecreate⟩ | ⟨⟨created, hcreated, hcreate⟩, -⟩⟩ :=
    h.entry hentry
  · exact ⟨later, hlater, halters⟩
  · exact ⟨later, hlater, fun _ => by rw [hrecreate]; rfl⟩
  · exact ⟨created, hcreated, fun _ => by rw [hcreate]; rfl⟩

/-- An edit that queues a change leaves an entry for it. If there was one before, it was to be
altered, and goes away now. -/
theorem Edit.entry_of_queued {trigger : Trigger}
    (h : Edit extra plan (next, some (id, trigger))) :
    (∃ entry, next.get? id = some entry ∧ (trigger = .removal → entry.treatment.alters = false)) ∧
      ∀ before, plan.get? id = some before →
        trigger = .removal ∧ before.treatment.alters = true := by
  cases h with
  | upgrade found alters =>
    refine ⟨⟨_, get?_reassign_self found, fun _ => rfl⟩, fun before hbefore => ⟨rfl, ?_⟩⟩
    obtain rfl := Option.some.inj (found.symm.trans hbefore)
    exact alters
  | drop absent | recreate absent =>
    exact ⟨⟨_, get?_derive_self absent, fun _ => rfl⟩, fun before hbefore => by simp_all⟩
  | refreshInPlace absent =>
    exact ⟨⟨_, get?_derive_self absent, nofun⟩, fun before hbefore => by simp_all⟩

/-- What an edit queues has not entered the queue before. -/
theorem Edit.history {change : Option Change} (h : Edit extra plan (next, change))
    (hnew : plan.new.WellFormed) (hplan : plan.History entered) :
    next.History (entered ++ change.toList) := by
  have hkept := (h.advances hnew).history hplan
  cases change with
  | none => simpa using hkept
  | some change =>
    obtain ⟨id, trigger⟩ := change
    obtain ⟨hentry, hbefore⟩ := h.entry_of_queued
    have hfresh : (id, trigger) ∉ entered := fun hin => by
      obtain ⟨before, hfound, hgone⟩ := hplan.entry hin
      obtain ⟨htrigger, halters⟩ := hbefore before hfound
      rw [hgone htrigger] at halters
      cases halters
    refine ⟨?_, fun {other otherTrigger} hentered => ?_⟩
    · rw [Option.toList_some, ← List.concat_eq_append]
      exact hkept.nodup.concat hfresh
    · rcases List.mem_append.1 hentered with hin | hqueued
      · exact hkept.entry hin
      · obtain ⟨rfl, rfl⟩ := Prod.mk.inj (List.mem_singleton.1 hqueued)
        exact hentry

end Plan

namespace Expansion

variable {extra : List DependencyPair} {plan : Plan} {e next : Expansion} {done : List Change}

/-- What edits queue has not entered the queue before. -/
theorem Edits.history {due : Option Change} (h : Edits extra e next) (he : e.Sound due)
    (hdone : e.plan.History (done ++ e.queue)) : next.plan.History (done ++ next.queue) := by
  induction h with
  | refl => exact hdone
  | tail edits edit ih =>
    rw [← List.append_assoc]
    exact edit.history (edits.sound he).new ih

/-- At the start nothing is queued twice. -/
theorem history_start (hplan : plan.Distinct) : plan.History (start plan).queue := by
  refine ⟨?_, fun {id trigger} hqueued => ?_⟩
  · refine List.pairwise_filterMap.2 ((List.pairwise_map.1 hplan).imp fun {a b} hne c hc d hd => ?_)
    obtain ⟨_, -, rfl⟩ := Option.map_eq_some_iff.1 hc
    obtain ⟨_, -, rfl⟩ := Option.map_eq_some_iff.1 hd
    exact fun heq => hne (Prod.mk.inj heq).1
  · obtain ⟨entry, hentry, rfl, htrigger⟩ := mem_queue_start.1 hqueued
    refine ⟨entry, hplan.get?_of_mem hentry, fun hremoval => ?_⟩
    rw [hremoval] at htrigger
    cases htreatment : entry.treatment <;> simp_all [Treatment.trigger?, Treatment.alters]

/-! ## Runs -/

/-- What steps lead to from the start of an expansion, with the changes that have left the queue in
front. What has entered the queue are these and those that are in it. -/
inductive Reached (extra : List DependencyPair) (plan : Plan) : List Change → Expansion → Prop
  | start : Reached extra plan [] (.start plan)
  | step {done : List Change} {e next : Expansion} (reached : Reached extra plan done e)
      (step : e.step? extra = some next) : Reached extra plan (done ++ e.queue.head?.toList) next

/-- An expansion stays sound when a change leaves the queue. -/
theorem Sound.tail (he : e.Sound none) : Sound none { e with queue := e.queue.tail } :=
  ⟨he.old, he.new, he.distinct,
    fun hqueued => he.reaches (.inl (List.mem_of_mem_tail (hqueued.resolve_right nofun)))⟩

/-- Whatever is reached is sound, and no change has entered the queue twice. -/
theorem Reached.sound_and_history (h : Reached extra plan done e) (hold : plan.old.WellFormed)
    (hnew : plan.new.WellFormed) (hplan : plan.Distinct) :
    e.Sound none ∧ e.plan.History (done ++ e.queue) := by
  induction h with
  | start => exact ⟨sound_start hold hnew hplan, history_start hplan⟩
  | @step done e next _ hstep ih =>
    obtain ⟨hsound, hhistory⟩ := ih
    obtain ⟨hedits, hnext, -⟩ := step?_spec hsound hstep
    have hsplit : done ++ e.queue.head?.toList ++ e.queue.tail = done ++ e.queue := by
      cases e.queue <;> simp
    exact ⟨hnext, hedits.history hsound.tail (hsplit.symm ▸ hhistory)⟩

/-- A run makes steps. -/
theorem reaches_run (extra : List DependencyPair) (fuel : Nat) (e : Expansion) :
    StateTransition.Reaches (step? extra) e (run extra fuel e) :=
  run_induction (p := StateTransition.Reaches (step? extra) e) .refl fun hreaches hstep =>
    hreaches.tail hstep

end Expansion

namespace Plan

variable {plan : Plan}

/-- **Expansion ends and moves forward.** Steps from the start of a plan that has one entry for each
identity end with the plan that `expand` gives. On the way no change enters the queue twice; a step
takes the first one from the queue, edits the plan, and puts what follows behind the others.
Whatever edits have led to a plan, one more leaves every entry as it is, or has an object recreated
that was to be altered, or a sub-element created again with its recreated owner. -/
theorem expand_moves_forward (hold : plan.old.WellFormed) (hnew : plan.new.WellFormed)
    (hplan : plan.Distinct) (extra : List DependencyPair) :
    (∃ last ∈ StateTransition.eval (Expansion.step? extra) (.start plan),
      last.plan = plan.expand extra) ∧
    (∀ done e, Expansion.Reached extra plan done e → (done ++ e.queue).Nodup ∧
      ∀ next, e.step? extra = some next →
        (∃ entered, next.queue = e.queue.tail ++ entered) ∧ Edited extra e.plan next.plan) ∧
    ∀ middle next change, Edited extra plan middle → Edit extra middle (next, change) →
      middle.Advances next := by
  have hstart := Expansion.sound_start hold hnew hplan
  refine ⟨⟨_, StateTransition.mem_eval.2 ⟨Expansion.reaches_run extra _ _, ?_⟩, rfl⟩,
    fun done e hreached => ?_, fun middle next change hedited hedit => ?_⟩
  · exact Expansion.step?_run hstart (Nat.le_succ_of_le (Expansion.weight_start plan))
  · obtain ⟨hsound, hhistory⟩ := hreached.sound_and_history hold hnew hplan
    refine ⟨hhistory.nodup, fun next hstep => ?_⟩
    obtain ⟨hedits, -⟩ := Expansion.step?_spec hsound hstep
    exact ⟨hedits.queue, hedits.edited⟩
  · exact hedit.advances ((hedited.advances hnew).new.symm ▸ hnew)

end Plan

namespace Plan.CircleOfViews

/-- A view of the schema `a`. -/
def view (name : String) : ObjectId := ⟨.view, ["a", name]⟩

/-- The index of the table `t`. -/
def index : ObjectId := ⟨.index, ["a", "t", "i"]⟩

/-- A table with an index, and two views that need each other, of which one needs the table. -/
def snapshot : Snapshot where
  dialect := .postgres
  statements :=
    [{ id := .database, parent := none, definition := .database, children := [⟨.schema, ["a"]⟩] },
     { id := ⟨.schema, ["a"]⟩, parent := some .database, definition := .schema {},
       children := [.table "a" "t", view "v", view "w"] },
     { id := .table "a" "t", parent := some ⟨.schema, ["a"]⟩, definition := .table {},
       children := [index] },
     { id := index, parent := some (.table "a" "t"), definition := .index { columns := ["x"] } },
     { id := view "v", parent := some ⟨.schema, ["a"]⟩, definition := .view { query := "SELECT 1" },
       dependencies := [.table "a" "t", view "w"] },
     { id := view "w", parent := some ⟨.schema, ["a"]⟩, definition := .view { query := "SELECT 2" },
       dependencies := [view "v"] }]
  fingerprints := []

/-- The table and its index are recreated, and the view that needs the table is altered. -/
def plan : Plan where
  old := snapshot
  new := snapshot
  entries :=
    [{ id := .table "a" "t", treatment := .recreate, origin := .selected, order := 0 },
     { id := index, treatment := .recreate, origin := .selected, order := 1 },
     { id := view "v", treatment := .alter, origin := .selected, order := 2 }]

/-- The altered view is recreated on account of the table, and the other one on account of the
first; the index is created again. Though each view needs the other, neither is queued twice. -/
theorem views_recreated_once :
    plan.old.WellFormed ∧ plan.new.WellFormed ∧ plan.Distinct ∧
      (∃ last ∈ StateTransition.eval (Expansion.step? []) (.start plan),
        last.plan.entries.map (fun entry => (entry.id, entry.treatment)) =
          [(.table "a" "t", .recreate), (index, .create), (view "v", .recreate),
            (view "w", .recreate)]) ∧
      ∀ done e, Expansion.Reached [] plan done e → (done ++ e.queue).Nodup := by
  have hold : plan.old.WellFormed := by decide +kernel
  have hnew : plan.new.WellFormed := hold
  have hplan : plan.Distinct := by unfold Distinct; decide +kernel
  obtain ⟨⟨last, hlast, heq⟩, hqueue, -⟩ := expand_moves_forward hold hnew hplan []
  refine ⟨hold, hnew, hplan, ⟨last, hlast, ?_⟩, fun done e h => (hqueue done e h).1⟩
  rw [heq]
  decide +kernel

end Plan.CircleOfViews

end SchemaMigration
