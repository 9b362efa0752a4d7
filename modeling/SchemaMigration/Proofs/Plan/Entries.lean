import Mathlib.Data.List.Nodup
import SchemaMigration.Plan.Expansion
import SchemaMigration.Proofs.Snapshot.Tree
import SchemaMigration.Proofs.Success

/-!
# The entries of a plan

A plan is looked up by identity. Its entries are changed in two ways: an entry gets another
treatment, or an entry is added for an identity that had none; what a look-up finds afterwards is
said by `Plan.get?_reassign` and `Plan.get?_derive`. Plans that elements give have one entry for
each identity, and its treatment fits the snapshots (`Plan.Sound`).
-/

namespace SchemaMigration

namespace Plan

variable {plan : Plan} {id : ObjectId} {entry : PlanEntry}

/-! ## Look-up -/

/-- An entry that is found is there and has the identity. -/
theorem get?_some (h : plan.get? id = some entry) : entry ∈ plan.entries ∧ entry.id = id :=
  ⟨List.mem_of_find?_eq_some h, by simpa using List.find?_some h⟩

/-- A plan touches the identities whose entry is found. -/
theorem contains_iff : plan.contains id = true ↔ ∃ entry, plan.get? id = some entry := by
  rw [← Option.isSome_iff_exists]
  simp [contains, get?, List.find?_isSome]

/-- Nothing is found for an identity that is not touched. -/
theorem get?_eq_none_iff : plan.get? id = none ↔ plan.contains id = false := by
  rw [← Bool.not_eq_true, contains_iff, Option.eq_none_iff_forall_ne_some]
  simp

/-- What is found is what the plan says of an identity. -/
theorem treats_iff {sort : Treatment → Bool} :
    plan.treats id sort = true ↔
      ∃ entry, plan.get? id = some entry ∧ sort entry.treatment = true := by
  unfold treats
  cases plan.get? id <;> simp

/-- What is said of the table of a sub-element is said of its parent. -/
theorem treats_topLevel_iff {snapshot : Snapshot} (hwf : snapshot.WellFormed)
    (hid : snapshot.contains id = true) {sort : Treatment → Bool} :
    (id.kind.isSubElement && plan.treats (snapshot.topLevel id) sort) = true ↔
      id.kind.isSubElement = true ∧ ∃ owner, snapshot.parent? id = some owner ∧
        ∃ entry, plan.get? owner = some entry ∧ sort entry.treatment = true := by
  rw [Bool.and_eq_true, treats_iff]
  refine and_congr_right fun hsub => ?_
  obtain ⟨owner, hp⟩ := hwf.exists_parent? hid (by rintro rfl; cases hsub)
  rw [hwf.topLevel_of_parent? hsub hp]
  simp [hp]

/-- A sub-element goes with its table if its old parent is dropped. -/
theorem droppedWithTable_iff (hold : plan.old.WellFormed) (hid : plan.old.contains id = true) :
    plan.droppedWithTable id = true ↔
      id.kind.isSubElement = true ∧ ∃ owner, plan.old.parent? id = some owner ∧
        ∃ entry, plan.get? owner = some entry ∧ entry.treatment.drops = true :=
  treats_topLevel_iff hold hid

/-- A sub-element comes with its table if its new parent is created. -/
theorem createdWithTable_iff (hnew : plan.new.WellFormed) (hid : plan.new.contains id = true) :
    plan.createdWithTable id = true ↔
      id.kind.isSubElement = true ∧ ∃ owner, plan.new.parent? id = some owner ∧
        ∃ entry, plan.get? owner = some entry ∧ entry.treatment.creates = true :=
  treats_topLevel_iff hnew hid

/-- A plan touches no identity twice. -/
def Distinct (plan : Plan) : Prop := (plan.entries.map (·.id)).Nodup

/-- The entry of an identity is the only one. -/
theorem Distinct.get?_of_mem (h : plan.Distinct) (he : entry ∈ plan.entries) :
    plan.get? entry.id = some entry := by
  obtain ⟨found, hfound⟩ := contains_iff.1
    (List.any_eq_true.2 ⟨entry, he, beq_self_eq_true entry.id⟩)
  obtain ⟨hmem, hid⟩ := get?_some hfound
  rw [hfound, List.inj_on_of_nodup_map h hmem he hid]

/-! ## Changes of entries -/

/-- Changing an entry that keeps its identity changes what is found for that identity. -/
theorem get?_modify (change : PlanEntry → PlanEntry) (hid : ∀ entry, (change entry).id = entry.id)
    (other : ObjectId) :
    (plan.modify id change).get? other =
      if other = id then (plan.get? id).map change else plan.get? other := by
  simp only [get?, modify]
  induction plan.entries with
  | nil => simp
  | cons first rest ih =>
    rw [List.map_cons, List.find?_cons, List.find?_cons, List.find?_cons, ih]
    by_cases hfirst : first.id = id <;> by_cases hother : other = id
    · subst hother; simp [hfirst, hid]
    · have : (id == other) = false := by simpa using Ne.symm hother
      simp [hfirst, hid, hother, this]
    · subst hother
      have : (first.id == other) = false := by simpa using hfirst
      simp [hfirst, this]
    · simp [hfirst, hother]

/-- What is found after an entry got another treatment. -/
theorem get?_reassign {treatment : Treatment} (other : ObjectId) :
    (plan.reassign id treatment).get? other =
      if other = id then (plan.get? id).map fun entry => { entry with treatment, statements := [] }
      else plan.get? other :=
  get?_modify (fun entry => { entry with treatment, statements := [] }) (fun _ => rfl) other

/-- What is found after an entry that is there got another treatment. -/
theorem get?_reassign_of_get? {treatment : Treatment} (h : plan.get? id = some entry)
    (other : ObjectId) :
    (plan.reassign id treatment).get? other =
      if other = id then some { entry with treatment, statements := [] } else plan.get? other := by
  rw [get?_reassign, h]
  rfl

/-- An entry that got another treatment is found with it. -/
theorem get?_reassign_self {treatment : Treatment} (h : plan.get? id = some entry) :
    (plan.reassign id treatment).get? id = some { entry with treatment, statements := [] } := by
  rw [get?_reassign_of_get? h, if_pos rfl]

/-- The identities stay the same when an entry gets another treatment. -/
theorem map_id_reassign {treatment : Treatment} :
    (plan.reassign id treatment).entries.map (·.id) = plan.entries.map (·.id) := by
  simp only [reassign, modify, List.map_map]
  refine List.map_congr_left fun entry _ => ?_
  by_cases h : entry.id = id <;> simp [h]

/-- A change of an entry leaves those before and behind it alone. -/
theorem Distinct.entries_modify (h : plan.Distinct) (hentry : plan.get? id = some entry)
    (change : PlanEntry → PlanEntry) :
    ∃ before after, plan.entries = before ++ entry :: after ∧
      (plan.modify id change).entries = before ++ change entry :: after := by
  obtain ⟨hmem, rfl⟩ := get?_some hentry
  obtain ⟨before, after, heq⟩ := List.append_of_mem hmem
  refine ⟨before, after, heq, ?_⟩
  rw [Distinct, heq, List.map_append, List.map_cons, List.nodup_append, List.nodup_cons] at h
  have hbefore : ∀ e ∈ before, e.id ≠ entry.id := fun e he =>
    h.2.2 e.id (List.mem_map_of_mem he) entry.id List.mem_cons_self
  have hafter : ∀ e ∈ after, e.id ≠ entry.id := fun e he hid =>
    h.2.1.1 (hid ▸ List.mem_map_of_mem he)
  have hsame : ∀ {es : List PlanEntry}, (∀ e ∈ es, e.id ≠ entry.id) →
      es.map (fun e => if e.id = entry.id then change e else e) = es := fun hes =>
    (List.map_congr_left fun e he => if_neg (hes e he)).trans (List.map_id' _)
  simp only [modify, heq, List.map_append, List.map_cons, if_true, hsame hbefore, hsame hafter]

/-- What is found after an entry was added for an identity that had none. -/
theorem get?_append (h : plan.get? entry.id = none) (other : ObjectId) :
    get? { plan with entries := plan.entries ++ [entry] } other =
      if other = entry.id then some entry else plan.get? other := by
  simp only [get?, List.find?_append] at h ⊢
  by_cases hother : other = entry.id
  · subst hother; simp [h]
  · have : (entry.id == other) = false := by simpa using Ne.symm hother
    simp [hother, this]

/-- Adding an entry for an identity that had none touches no identity twice. -/
theorem Distinct.append (hplan : plan.Distinct) (h : plan.get? entry.id = none) :
    Distinct { plan with entries := plan.entries ++ [entry] } := by
  rw [Distinct, List.map_append]
  refine List.Nodup.append hplan (List.nodup_singleton _) ?_
  rw [List.map_singleton, List.disjoint_singleton]
  intro hin
  obtain ⟨other, hother, hid⟩ := List.mem_map.1 hin
  rw [← hid, hplan.get?_of_mem hother] at h
  cases h

/-- What is found after an object was added that was not selected. -/
theorem get?_derive (h : plan.get? id = none) {treatment : Treatment} {origin : Origin}
    {statements : List String} (other : ObjectId) :
    (plan.derive id treatment origin statements).get? other =
      if other = id then some ⟨id, treatment, origin, plan.nextOrder, statements⟩
      else plan.get? other :=
  get?_append h other

/-- An entry that was added is found. -/
theorem get?_derive_self (h : plan.get? id = none) {treatment : Treatment} {origin : Origin}
    {statements : List String} : (plan.derive id treatment origin statements).get? id =
      some ⟨id, treatment, origin, plan.nextOrder, statements⟩ := by
  rw [get?_derive h, if_pos rfl]

/-! ## Dependents -/

/-- What depends on an object is what needs it, or something that it owns, from outside. -/
theorem mem_dependents {extra : List DependencyPair} (hold : plan.old.WellFormed)
    {dependent : ObjectId} :
    dependent ∈ plan.dependents extra id ↔
      (∃ need, (need = id ∨ plan.old.Owns id need) ∧ plan.old.Needs extra dependent need) ∧
        dependent ≠ id ∧ ¬ plan.old.Owns id dependent := by
  have hsources : ∀ need, need ∈ id :: (plan.old.descendants id).map (·.id) ↔
      need = id ∨ plan.old.Owns id need := fun need => by
    rw [List.mem_cons, List.mem_map, ← hold.mem_descendants_iff]
  have hneeds : ∀ need, dependent ∈ plan.old.dependents need ++
      DependencyPair.dependentsOf extra need ↔ plan.old.Needs extra dependent need := fun need => by
    simp only [Snapshot.dependents, DependencyPair.dependentsOf, List.mem_append, List.mem_map,
      List.mem_filter, List.contains_iff_mem, beq_iff_eq, Snapshot.Needs]
    refine or_congr ⟨?_, ?_⟩ ⟨?_, ?_⟩
    · rintro ⟨s, ⟨hs, hneed⟩, rfl⟩
      exact ⟨s, hold.get?_of_mem hs, hneed⟩
    · rintro ⟨s, hs, hneed⟩
      obtain ⟨hmem, hid⟩ := Snapshot.get?_some hs
      exact ⟨s, ⟨hmem, hneed⟩, hid⟩
    · rintro ⟨pair, ⟨hpair, rfl⟩, rfl⟩
      exact hpair
    · exact fun hpair => ⟨_, ⟨hpair, rfl⟩, rfl⟩
  simp only [dependents, List.mem_eraseDups, List.mem_filter, List.mem_flatMap, hsources, hneeds,
    Bool.and_eq_true, decide_eq_true_eq, Bool.not_eq_true', ← Bool.not_eq_true,
    hold.isDescendant_iff]

/-! ## Treatments that fit the snapshots -/

end Plan

/-- The snapshots hold what an entry needs: the old one whatever is not only created, the new one
whatever is not only dropped. -/
structure PlanEntry.Grounded (old new : Snapshot) (entry : PlanEntry) : Prop where
  old : entry.treatment ≠ .create → old.contains entry.id = true
  new : entry.treatment ≠ .drop → new.contains entry.id = true
  touched : entry.treatment ≠ .nothing

namespace Plan

variable {plan : Plan} {id : ObjectId} {entry : PlanEntry}

/-- Every treatment of a plan fits its snapshots. -/
def Grounded (plan : Plan) : Prop :=
  ∀ id entry, plan.get? id = some entry → entry.Grounded plan.old plan.new

/-- Treatments still fit after an entry got another one that fits. -/
theorem Grounded.reassign {treatment : Treatment} (hplan : plan.Grounded)
    (hfound : plan.get? id = some entry)
    (hentry : PlanEntry.Grounded plan.old plan.new { entry with treatment, statements := [] }) :
    (plan.reassign id treatment).Grounded := by
  intro other entry' hfound'
  rw [get?_reassign, hfound] at hfound'
  split at hfound'
  · obtain rfl := Option.some.inj hfound'
    exact hentry
  · exact hplan other entry' hfound'

/-- Treatments still fit after an entry was added that fits. -/
theorem Grounded.append (hplan : plan.Grounded) (h : plan.get? entry.id = none)
    (hentry : entry.Grounded plan.old plan.new) :
    Grounded { plan with entries := plan.entries ++ [entry] } := by
  intro other entry' hfound
  rw [get?_append h] at hfound
  split at hfound
  · obtain rfl := Option.some.inj hfound
    exact hentry
  · exact hplan other entry' hfound

end Plan

end SchemaMigration
