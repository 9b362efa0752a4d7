import SchemaMigration.Proofs.Plan.Edit

/-!
# Expansion runs to its end

A run of the expansion is a sequence of edits (`Expansion.Edits`), for which it takes no more than
that what is queued reaches its dependents (`Expansion.Sound`). It ends with nothing left to do: an
edit never makes the weight of an expansion larger, each step makes it smaller
(`Expansion.step?_spec`), and at the start it is no more than the steps that are allowed for. In
between, what an entry of the plan forces is either queued or done, and the children of an object
whose turn has come are in the plan (`Expansion.Valid`). So in the end the plan is complete
(`Plan.Complete`): all dependents of what goes away or changes in place are looked after, and
recreated objects have their children back.
-/

namespace SchemaMigration

/-! ## Runs of edits -/

namespace Plan

variable {extra : List DependencyPair}

/-- A plan that edits lead to. -/
inductive Edited (extra : List DependencyPair) : Plan → Plan → Prop
  | refl (plan : Plan) : Edited extra plan plan
  | tail {plan middle next : Plan} {change : Option Change} (edited : Edited extra plan middle)
      (edit : Edit extra middle (next, change)) : Edited extra plan next

variable {plan next : Plan}

/-- Edits in two stages. -/
theorem Edited.trans {last : Plan} (h : Edited extra plan next) (h' : Edited extra next last) :
    Edited extra plan last := by
  induction h' with
  | refl => exact h
  | tail _ edit ih => exact .tail ih edit

/-- Edits advance a plan. -/
theorem Edited.advances (h : Edited extra plan next) (hnew : plan.new.WellFormed) :
    plan.Advances next := by
  induction h with
  | refl => exact .refl plan
  | tail _ edit ih => exact ih.trans hnew (edit.advances (ih.new.symm ▸ hnew))

/-- Edits keep the entries apart. -/
theorem Edited.distinct (h : Edited extra plan next) (hplan : plan.Distinct) : next.Distinct := by
  induction h with
  | refl => exact hplan
  | tail _ edit ih => exact edit.distinct ih

/-- Edits keep treatments fitting. -/
theorem Edited.grounded (h : Edited extra plan next) (hplan : plan.Grounded) : next.Grounded := by
  induction h with
  | refl => exact hplan
  | tail _ edit ih => exact edit.grounded ih

/-- Edits create and drop in good faith. -/
theorem Edited.truthful {fresh gone : ObjectId → Prop} (h : Edited extra plan next)
    (hnew : plan.new.WellFormed) (hplan : plan.Truthful fresh gone)
    (hfresh : ∀ {id}, plan.old.contains id = false → plan.new.contains id = true → fresh id)
    (hgone : ∀ {id}, plan.old.contains id = true → plan.new.contains id = false → gone id) :
    next.Truthful fresh gone := by
  induction h with
  | refl => exact hplan
  | tail edited edit ih =>
    have hadvances := edited.advances hnew
    refine edit.truthful (hadvances.new.symm ▸ hnew) ih ?_ ?_ <;> rw [hadvances.old, hadvances.new]
    · exact hfresh
    · exact hgone

end Plan

namespace Expansion

variable {extra : List DependencyPair} {e next : Expansion}

/-- An expansion that edits lead to, with what follows from them in the queue. -/
inductive Edits (extra : List DependencyPair) : Expansion → Expansion → Prop
  | refl (e : Expansion) : Edits extra e e
  | tail {e middle : Expansion} {plan : Plan} {change : Option Change}
      (edits : Edits extra e middle)
      (edit : Plan.Edit extra middle.plan (plan, change)) :
      Edits extra e { middle with plan, queue := middle.queue ++ change.toList }

/-- Edits in two stages. -/
theorem Edits.trans {last : Expansion} (h : Edits extra e next) (h' : Edits extra next last) :
    Edits extra e last := by
  induction h' with
  | refl => exact h
  | tail _ edit ih => exact .tail ih edit

/-- The plan of an expansion is edited with it. -/
theorem Edits.edited (h : Edits extra e next) : Plan.Edited extra e.plan next.plan := by
  induction h with
  | refl => exact .refl e.plan
  | tail _ edit ih => exact .tail ih edit

/-- A change that is an edit of the plan. -/
theorem edits_apply {change : Plan → Plan × Option Change}
    (h : Plan.Edit extra e.plan (change e.plan)) : Edits extra e (e.apply change) :=
  .tail (.refl e) h

/-- A change for each of some objects consists of edits, if it is one wherever edits lead. -/
theorem edits_applyAll {change : ObjectId → Plan → Plan × Option Change} {ids : List ObjectId}
    (h : ∀ next id, Edits extra e next → id ∈ ids →
      Plan.Edit extra next.plan (change id next.plan)) :
    Edits extra e (e.applyAll change ids) := by
  induction ids generalizing e with
  | nil => exact .refl e
  | cons id ids ih =>
    have hfirst := edits_apply (h e id (.refl e) List.mem_cons_self)
    refine hfirst.trans (ih fun next other hnext hother => ?_)
    exact h next other (hfirst.trans hnext) (List.mem_cons_of_mem _ hother)

/-- What the change for one object achieves holds for each of the objects, if edits keep it. -/
theorem applyAll_achieves {change : ObjectId → Plan → Plan × Option Change} {ids : List ObjectId}
    {p : Plan → ObjectId → Prop}
    (h : ∀ next id, Edits extra e next → id ∈ ids → Plan.Edit extra next.plan (change id next.plan))
    (hp : ∀ next id, Edits extra e next → id ∈ ids → p (change id next.plan).1 id)
    (hkeep : ∀ {next last id}, Edits extra e next → Edits extra next last → p next.plan id →
      p last.plan id) :
    ∀ id ∈ ids, p (e.applyAll change ids).plan id := by
  induction ids generalizing e with
  | nil => simp
  | cons id ids ih =>
    have hfirst := edits_apply (h e id (.refl e) List.mem_cons_self)
    have hrest : ∀ next other, Edits extra (e.apply (change id)) next → other ∈ ids →
        Plan.Edit extra next.plan (change other next.plan) := fun next other hnext hother =>
      h next other (hfirst.trans hnext) (List.mem_cons_of_mem _ hother)
    rintro other (_ | ⟨_, hother⟩)
    · exact hkeep hfirst (edits_applyAll hrest) (hp e id (.refl e) List.mem_cons_self)
    · refine ih hrest (fun next other hnext hin => ?_) (fun hnext => ?_) other hother
      · exact hp next other (hfirst.trans hnext) (List.mem_cons_of_mem _ hin)
      · exact hkeep (hfirst.trans hnext)

/-! ## Weights -/

/-- What an entry may still cause: an alteration may become a recreation, and the children of a
recreated object are to be restored. -/
def cost (restored : List ObjectId) (entry : PlanEntry) : Nat :=
  if entry.treatment.alters then 2
  else if entry.treatment = .recreate && !restored.contains entry.id then 1 else 0

/-- A recreation costs less than an alteration. -/
theorem cost_recreate {restored : List ObjectId} {entry : PlanEntry}
    (h : entry.treatment = .recreate) : cost restored entry ≤ 1 := by
  simp only [cost, h, Treatment.alters, Bool.false_eq_true, if_false]
  split <;> omega

/-- No entry costs more than an alteration. -/
theorem cost_le (restored : List ObjectId) (entry : PlanEntry) : cost restored entry ≤ 2 := by
  unfold cost
  split
  · omega
  · split <;> omega

/-- What several entries may still cause. -/
def costs (restored : List ObjectId) : List PlanEntry → Nat
  | [] => 0
  | entry :: entries => cost restored entry + costs restored entries

/-- What entries that stand behind each other may cause. -/
theorem costs_append (restored : List ObjectId) (entries others : List PlanEntry) :
    costs restored (entries ++ others) = costs restored entries + costs restored others := by
  induction entries with
  | nil => simp [costs]
  | cons entry entries ih =>
    rw [List.cons_append, costs, costs, ih]
    omega

/-- The statements of either snapshot that are not in the plan. -/
def untouched (e : Expansion) : Nat :=
  (e.plan.old.statements ++ e.plan.new.statements).countP fun s => !e.plan.contains s.id

/-- A bound on the steps that are left. -/
def weight (e : Expansion) : Nat :=
  e.queue.length + costs e.restored e.plan.entries + 3 * e.untouched

/-- A plan touches an identity after an entry was added if it did before, or if the entry is its. -/
theorem contains_derive {plan : Plan} {id other : ObjectId} {treatment : Treatment}
    {origin : Origin} {statements : List String} :
    (plan.derive id treatment origin statements).contains other =
      (plan.contains other || id == other) := by
  simp [Plan.contains, Plan.derive]

/-- Adding an entry leaves fewer statements untouched. -/
theorem untouched_derive {id : ObjectId} {treatment : Treatment} {origin : Origin}
    {statements : List String} {queue : List Change} (habsent : e.plan.get? id = none)
    (hheld : e.plan.old.contains id = true ∨ e.plan.new.contains id = true) :
    untouched { e with plan := e.plan.derive id treatment origin statements, queue } <
      e.untouched := by
  obtain ⟨s, hs, rfl⟩ : ∃ s ∈ e.plan.old.statements ++ e.plan.new.statements, s.id = id := by
    simp only [Snapshot.contains_iff_exists_mem] at hheld
    rcases hheld with ⟨s, hs, hid⟩ | ⟨s, hs, hid⟩
    · exact ⟨s, List.mem_append_left _ hs, hid⟩
    · exact ⟨s, List.mem_append_right _ hs, hid⟩
  obtain ⟨before, after, heq⟩ := List.append_of_mem hs
  have hless : ∀ l : List Statement,
      l.countP (fun t => !(e.plan.derive s.id treatment origin statements).contains t.id) ≤
        l.countP fun t => !e.plan.contains t.id := fun l =>
    List.countP_mono_left fun t _ ht => by simp_all [contains_derive]
  have hnot : e.plan.contains s.id = false := Plan.get?_eq_none_iff.1 habsent
  have hbefore := hless before
  have hafter := hless after
  have hsides : (e.plan.derive s.id treatment origin statements).old.statements ++
      (e.plan.derive s.id treatment origin statements).new.statements =
        before ++ s :: after := heq
  simp only [untouched, hsides, heq, List.countP_append, List.countP_cons, hnot, contains_derive,
    beq_self_eq_true, Bool.or_true, Bool.not_true, Bool.not_false, if_true] at hbefore hafter ⊢
  simp only [Bool.false_eq_true, if_false]
  omega

/-- An edit does not add to the weight. -/
theorem weight_edit {plan : Plan} {change : Option Change} (hplan : e.plan.Distinct)
    (h : Plan.Edit extra e.plan (plan, change)) :
    weight { e with plan, queue := e.queue ++ change.toList } ≤ e.weight := by
  have hreassign : ∀ {id entry treatment}, e.plan.get? id = some entry →
      cost e.restored { entry with treatment, statements := [] } + change.toList.length ≤
        cost e.restored entry →
      weight { e with plan := e.plan.reassign id treatment, queue := e.queue ++ change.toList } ≤
        e.weight := by
    intro id entry treatment hfound hcost
    obtain ⟨before, after, heq, hchanged⟩ := hplan.entries_modify hfound
      fun entry => { entry with treatment, statements := [] }
    have hentries : (e.plan.reassign id treatment).entries =
        before ++ { entry with treatment, statements := [] } :: after := hchanged
    have hcontains : ∀ other, (e.plan.reassign id treatment).contains other =
        e.plan.contains other := by
      simp [Plan.contains, hentries, heq]
    have huntouched : untouched { e with plan := e.plan.reassign id treatment,
                                         queue := e.queue ++ change.toList } = e.untouched := by
      simp only [untouched, hcontains]
      rfl
    simp only [weight, huntouched, hentries, heq, costs_append, costs, List.length_append]
    omega
  have hderive : ∀ {id treatment origin statements}, e.plan.get? id = none →
      e.plan.old.contains id = true ∨ e.plan.new.contains id = true →
      cost e.restored ⟨id, treatment, origin, e.plan.nextOrder, statements⟩ +
        change.toList.length ≤ 3 →
      weight { e with plan := e.plan.derive id treatment origin statements,
                      queue := e.queue ++ change.toList } ≤ e.weight := by
    intro id treatment origin statements habsent hheld hcost
    have hless : untouched { e with plan := e.plan.derive id treatment origin statements,
                                    queue := e.queue ++ change.toList } < e.untouched :=
      untouched_derive habsent hheld
    have hentries : (e.plan.derive id treatment origin statements).entries =
        e.plan.entries ++ [⟨id, treatment, origin, e.plan.nextOrder, statements⟩] := rfl
    simp only [weight, hentries, costs_append, costs, List.length_append]
    omega
  cases h with
  | keep => simp
  | @upgrade id entry found alters =>
    have hcost : cost e.restored { entry with treatment := .recreate, statements := [] } ≤ 1 :=
      cost_recreate rfl
    have hbefore : cost e.restored entry = 2 := by rw [cost, if_pos alters]
    exact hreassign found (by simp only [hbefore, Option.toList_some, List.length_singleton]; omega)
  | restore found => exact hreassign found (by simp [cost, Treatment.alters])
  | drop absent existed => exact hderive absent (.inl existed) (by simp [cost, Treatment.alters])
  | @recreate id origin absent existed =>
    have hcost : cost e.restored ⟨id, .recreate, origin, e.plan.nextOrder, []⟩ ≤ 1 :=
      cost_recreate rfl
    exact hderive absent (.inl existed)
      (by simp only [Option.toList_some, List.length_singleton]; omega)
  | create absent stays => exact hderive absent (.inr stays) (by simp [cost, Treatment.alters])
  | refreshInPlace absent existed =>
    exact hderive absent (.inl existed) (by simp [cost, Treatment.alters])

/-- Edits do not add to the weight. -/
theorem Edits.weight_le (h : Edits extra e next) (hplan : e.plan.Distinct) :
    next.weight ≤ e.weight := by
  induction h with
  | refl => exact Nat.le_refl _
  | tail edits edit ih => exact Nat.le_trans (weight_edit (edits.edited.distinct hplan) edit) ih

/-- Edits leave the list of restored objects alone. -/
theorem Edits.restored (h : Edits extra e next) : next.restored = e.restored := by
  induction h with
  | refl => rfl
  | tail _ _ ih => exact ih

/-- Edits only add behind the queue. -/
theorem Edits.queue (h : Edits extra e next) : ∃ entered, next.queue = e.queue ++ entered := by
  induction h with
  | refl => exact ⟨[], (List.append_nil _).symm⟩
  | @tail middle plan change _ _ ih =>
    obtain ⟨entered, hentered⟩ := ih
    exact ⟨entered ++ change.toList, by rw [← List.append_assoc, ← hentered]⟩

/-- Edits do not depend on what was restored before. -/
theorem Edits.reset (h : Edits extra e next) (restored : List ObjectId) :
    Edits extra { e with restored } { next with restored } := by
  induction h with
  | refl => exact .refl _
  | tail _ edit ih => exact .tail ih edit

/-- Marking an object as restored makes no entry cost more. -/
theorem cost_mark (restored : List ObjectId) (id : ObjectId) (entry : PlanEntry) :
    cost (restored ++ [id]) entry ≤ cost restored entry := by
  simp only [cost]
  split
  · exact Nat.le_refl _
  · by_cases hin : entry.id ∈ restored
    · simp [hin]
    · split <;> simp_all

/-- Marking an object as restored makes no entries cost more. -/
theorem costs_mark (restored : List ObjectId) (id : ObjectId) (entries : List PlanEntry) :
    costs (restored ++ [id]) entries ≤ costs restored entries := by
  induction entries with
  | nil => exact Nat.le_refl _
  | cons entry entries ih => exact Nat.add_le_add (cost_mark restored id entry) ih

/-- Marking an object as restored does not add to the weight. -/
theorem weight_mark (e : Expansion) (id : ObjectId) :
    weight { e with restored := e.restored ++ [id] } ≤ e.weight := by
  have hsum := costs_mark e.restored id e.plan.entries
  have huntouched : untouched { e with restored := e.restored ++ [id] } = e.untouched := rfl
  simp only [weight, huntouched]
  omega

/-- What is pending is recreated and was not restored. -/
theorem mem_pending {id : ObjectId} :
    id ∈ e.pending ↔
      (∃ entry ∈ e.plan.entries, entry.treatment = .recreate ∧ entry.id = id) ∧
        id ∉ e.restored := by
  simp [pending, and_assoc]

/-- Marking a recreated object as restored makes the weight smaller. -/
theorem weight_mark_pending {id : ObjectId} (h : id ∈ e.pending) :
    weight { e with restored := e.restored ++ [id] } < e.weight := by
  obtain ⟨⟨entry, hentry, hrecreate, rfl⟩, hnot⟩ := mem_pending.1 h
  obtain ⟨before, after, heq⟩ := List.append_of_mem hentry
  have hbefore := costs_mark e.restored entry.id before
  have hafter := costs_mark e.restored entry.id after
  have hcost : cost e.restored entry = 1 := by simp [cost, hrecreate, hnot, Treatment.alters]
  have hmarked : cost (e.restored ++ [entry.id]) entry = 0 := by
    simp [cost, hrecreate, Treatment.alters]
  have huntouched : untouched { e with restored := e.restored ++ [entry.id] } = e.untouched := rfl
  simp only [weight, huntouched, heq, costs_append, costs, hcost, hmarked]
  omega

/-! ## What edits rest on -/

/-- What the edits of an expansion rest on. `due` is a change that has left the queue and is being
dealt with. -/
structure Sound (due : Option Change) (e : Expansion) : Prop where
  old : e.plan.old.WellFormed
  new : e.plan.new.WellFormed
  distinct : e.plan.Distinct
  /-- What is queued, or due, reaches its dependents. -/
  reaches : ∀ {id trigger}, (id, trigger) ∈ e.queue ∨ due = some (id, trigger) →
    e.plan.Reaches id trigger

/-- Edits keep an expansion sound. -/
theorem Edits.sound {due : Option Change} (h : Edits extra e next) (he : e.Sound due) :
    next.Sound due := by
  induction h with
  | refl => exact he
  | tail _ edit ih =>
    have hadvances := edit.advances ih.new
    refine ⟨hadvances.old.symm ▸ ih.old, hadvances.new.symm ▸ ih.new, edit.distinct ih.distinct,
      fun {id trigger} hqueued => ?_⟩
    rw [List.mem_append, or_right_comm] at hqueued
    rcases hqueued with hqueued | hqueued
    · exact hadvances.reaches ih.new (ih.reaches hqueued)
    · rw [Option.mem_toList] at hqueued
      exact Plan.Edit.reaches_of_queued (Option.mem_def.1 hqueued ▸ edit)

/-- A queued change whose turn has come is due. -/
theorem Sound.pop {change : Change} {rest : List Change} (he : e.Sound none)
    (hqueue : e.queue = change :: rest) : Sound (some change) { e with queue := rest } := by
  refine ⟨he.old, he.new, he.distinct, fun {id trigger} hqueued => he.reaches (.inl ?_)⟩
  rw [hqueue, List.mem_cons, or_comm]
  exact hqueued.imp_right fun hdue => (Option.some.inj hdue).symm

/-- An expansion is sound without the change that is due. -/
theorem Sound.discharge {due : Option Change} (he : e.Sound due) : e.Sound none :=
  ⟨he.old, he.new, he.distinct, fun hqueued => he.reaches (.inl (hqueued.resolve_right nofun))⟩

/-- What was restored before does not matter. -/
theorem Sound.reset {due : Option Change} {restored : List ObjectId}
    (he : Sound due { e with restored }) : e.Sound due :=
  ⟨he.old, he.new, he.distinct, he.reaches⟩

/-! ## What is queued or done -/

/-- What holds of an expansion between two edits. `due` is a change that has left the queue and is
being dealt with. -/
structure Valid (extra : List DependencyPair) (due : Option Change) (e : Expansion) : Prop where
  old : e.plan.old.WellFormed
  new : e.plan.new.WellFormed
  distinct : e.plan.Distinct
  grounded : e.plan.Grounded
  /-- What is queued, or due, reaches its dependents. -/
  reaches : ∀ {id trigger}, (id, trigger) ∈ e.queue ∨ due = some (id, trigger) →
    e.plan.Reaches id trigger
  /-- What an entry forces is queued, due or done. -/
  settled : ∀ {id entry trigger}, e.plan.get? id = some entry → entry.trigger? = some trigger →
    ((id, trigger) ∈ e.queue ∨ due = some (id, trigger)) ∨
      ∀ dependent ∈ e.plan.dependents extra id, e.plan.Settled trigger dependent
  /-- The children of restored objects are in the plan. -/
  returned : ∀ {owner child}, owner ∈ e.restored → e.plan.new.parent? child = some owner →
    child.kind ≠ .column → e.plan.Returned child
  removed : ∀ {owner child}, owner ∈ e.restored → e.plan.old.parent? child = some owner →
    child.kind.isSubElement = false → e.plan.new.contains child = false →
      e.plan.contains child = true

/-- A valid expansion is sound. -/
theorem Valid.sound {due : Option Change} (he : e.Valid extra due) : e.Sound due :=
  ⟨he.old, he.new, he.distinct, he.reaches⟩

/-- Edits keep an expansion valid. -/
theorem Edits.valid {due : Option Change} (h : Edits extra e next) (he : e.Valid extra due) :
    next.Valid extra due := by
  induction h with
  | refl => exact he
  | @tail middle plan change edits edit ih =>
    have hadvances := edit.advances ih.new
    have hsound := (edits.tail edit).sound he.sound
    refine ⟨hsound.old, hsound.new, hsound.distinct, edit.grounded ih.grounded, hsound.reaches,
      fun {id entry trigger} hentry ht => ?_, fun {owner child} howner hparent hcolumn => ?_,
      fun {owner child} howner hparent hsub hgone => ?_⟩
    · rcases edit.trigger?_or_queued hentry ht with ⟨before, hbefore, htrigger⟩ | hqueued
      · rcases ih.settled hbefore htrigger with hqueued | hsettled
        · exact .inl (hqueued.imp_left (List.mem_append_left _))
        · refine .inr fun dependent hdependent => hadvances.settled ih.old (hsettled dependent ?_)
          rwa [hadvances.dependents] at hdependent
      · refine .inl (.inl (List.mem_append_right _ ?_))
        rw [hqueued]
        exact List.mem_singleton_self _
    · exact hadvances.returned (ih.returned howner (hadvances.new ▸ hparent) hcolumn)
    · exact hadvances.contains
        (ih.removed howner (hadvances.old ▸ hparent) hsub (hadvances.new ▸ hgone))

/-- A queued change whose turn has come is due. -/
theorem Valid.pop {change : Change} {rest : List Change} (he : e.Valid extra none)
    (hqueue : e.queue = change :: rest) : Valid extra (some change) { e with queue := rest } := by
  have hsound := he.sound.pop hqueue
  refine ⟨hsound.old, hsound.new, hsound.distinct, he.grounded, hsound.reaches,
    fun {id entry trigger} hentry htrigger => ?_, he.returned, he.removed⟩
  refine (he.settled hentry htrigger).imp_left fun hqueued => ?_
  have hqueued := hqueued.resolve_right nofun
  rw [hqueue, List.mem_cons, or_comm] at hqueued
  exact hqueued.imp_right fun heq => congrArg some heq.symm

/-- A due change is done when all its dependents are looked after. -/
theorem Valid.discharge {id : ObjectId} {trigger : Trigger}
    (he : e.Valid extra (some (id, trigger)))
    (hdone : ∀ dependent ∈ e.plan.dependents extra id, e.plan.Settled trigger dependent) :
    e.Valid extra none := by
  refine ⟨he.old, he.new, he.distinct, he.grounded, he.sound.discharge.reaches,
    fun {other entry otherTrigger} hentry htrigger => ?_, he.returned, he.removed⟩
  rcases he.settled hentry htrigger with (hqueued | hdue) | hsettled
  · exact .inl (.inl hqueued)
  · obtain ⟨rfl, rfl⟩ := Prod.mk.inj (Option.some.inj hdue)
    exact .inr hdone
  · exact .inr hsettled

/-! ## Steps -/

/-- Refreshing a dependent of the change that is due is an edit. -/
theorem Sound.refresh_edit {id dependent : ObjectId} {trigger : Trigger}
    (he : e.Sound (some (id, trigger))) (hnext : Edits extra e next)
    (hdependent : dependent ∈ e.plan.dependents extra id) :
    Plan.Edit extra next.plan (next.plan.refresh trigger dependent) := by
  have hadvances := hnext.edited.advances he.new
  refine Plan.refresh_edit (hadvances.reaches he.new (he.reaches (.inr rfl))) ?_
  rwa [hadvances.dependents]

/-- The edits that deal with the change that is due. -/
theorem Sound.refreshAll_edits {id : ObjectId} {trigger : Trigger}
    (he : e.Sound (some (id, trigger))) (extra : List DependencyPair) :
    Edits extra e (e.applyAll (fun dependent plan => plan.refresh trigger dependent)
      (e.plan.dependents extra id)) :=
  edits_applyAll fun _ _ => he.refresh_edit

/-- A change is done once all its dependents were refreshed. -/
theorem Valid.refreshAll {id : ObjectId} {trigger : Trigger}
    (he : e.Valid extra (some (id, trigger))) :
    Valid extra none (e.applyAll (fun dependent plan => plan.refresh trigger dependent)
      (e.plan.dependents extra id)) := by
  have hedits := he.sound.refreshAll_edits extra
  refine (hedits.valid he).discharge ?_
  rw [(hedits.edited.advances he.new).dependents]
  refine applyAll_achieves (p := fun plan dependent => plan.Settled trigger dependent)
    (fun _ _ => he.sound.refresh_edit)
    (fun next dependent _ _ => Plan.refresh_settles trigger dependent) ?_
  intro next last dependent hnext hlast hsettled
  have hvalid := hnext.valid he
  exact (hlast.edited.advances hvalid.new).settled hvalid.old hsettled

/-- Children of a recreated object that the new snapshot does not hold are dropped one by one. -/
theorem removeAll_spec (extra : List DependencyPair) {owner : ObjectId} {ids : List ObjectId}
    (he : e.Sound none) (hnodup : ids.Nodup) (howner : owner.kind.isSubElement = false)
    (hrecreates : e.plan.Recreates owner)
    (hids : ∀ id ∈ ids, e.plan.get? id = none ∧ e.plan.old.parent? id = some owner ∧
      e.plan.new.contains id = false) :
    Edits extra e (e.applyAll (fun child plan => plan.removeChild child) ids) ∧
      ∀ id ∈ ids, (e.applyAll (fun child plan => plan.removeChild child) ids).plan.contains id =
        true := by
  induction ids generalizing e with
  | nil => exact ⟨.refl e, by simp⟩
  | cons id ids ih =>
    obtain ⟨habsent, hparent, hgone⟩ := hids id List.mem_cons_self
    have hfirst : Edits extra e (e.apply fun plan => plan.removeChild id) :=
      edits_apply (Plan.removeChild_edit habsent hparent hgone hrecreates)
    have hadvances := hfirst.edited.advances he.new
    have hfound : ∀ other, (e.apply fun plan => plan.removeChild id).plan.get? other =
        if other = id then some ⟨id, .drop, .recreatedChild, e.plan.nextOrder, []⟩
        else e.plan.get? other := Plan.get?_derive habsent
    obtain ⟨hrest, hcontains⟩ := ih (hfirst.sound he) (List.nodup_cons.1 hnodup).2
      (hadvances.recreates howner hrecreates) fun other hother => by
        obtain ⟨habsent', hparent', hgone'⟩ := hids other (List.mem_cons_of_mem _ hother)
        rw [hfound, if_neg (by rintro rfl; exact (List.nodup_cons.1 hnodup).1 hother)]
        exact ⟨habsent', hparent', hgone'⟩
    refine ⟨hfirst.trans hrest, ?_⟩
    rintro other (_ | ⟨_, hother⟩)
    · refine (hrest.edited.advances (hadvances.new ▸ he.new)).contains ?_
      exact Plan.contains_iff.2 ⟨_, by rw [hfound, if_pos rfl]⟩
    · exact hcontains other hother

/-- The children of an object that come back are those of the new snapshot, columns aside. -/
theorem mem_restored {plan : Plan} (hnew : plan.new.WellFormed) {owner child : ObjectId} :
    child ∈ plan.restored owner ↔ plan.new.parent? child = some owner ∧ child.kind ≠ .column := by
  rw [← hnew.exists_mem_children]
  simp only [Plan.restored, List.mem_map, List.mem_filter, decide_eq_true_eq]
  constructor
  · rintro ⟨s, ⟨hs, hkind⟩, rfl⟩
    exact ⟨⟨s, hs, rfl⟩, hkind⟩
  · rintro ⟨⟨s, hs, rfl⟩, hkind⟩
    exact ⟨s, ⟨hs, hkind⟩, rfl⟩

/-- The children of an object that go away for good and are not in the plan. -/
theorem mem_removed {plan : Plan} (hold : plan.old.WellFormed) {owner child : ObjectId} :
    child ∈ plan.removed owner ↔ plan.old.parent? child = some owner ∧
      child.kind.isSubElement = false ∧ plan.new.contains child = false ∧
      plan.contains child = false := by
  rw [← hold.exists_mem_children]
  simp only [Plan.removed, List.mem_map, List.mem_filter, Bool.and_eq_true, Bool.not_eq_true',
    Statement.kind]
  constructor
  · rintro ⟨s, ⟨hs, ⟨hsub, hgone⟩, habsent⟩, rfl⟩
    exact ⟨⟨s, hs, rfl⟩, hsub, hgone, habsent⟩
  · rintro ⟨⟨s, hs, rfl⟩, hsub, hgone, habsent⟩
    exact ⟨s, ⟨hs, ⟨hsub, hgone⟩, habsent⟩, rfl⟩

/-- An object whose children may be brought into the plan: it is recreated, or has none. -/
def Restorable (plan : Plan) (id : ObjectId) : Prop :=
  id.kind.isSubElement = true ∨ plan.Recreates id

/-- The children of an object may be brought into the plan later on. -/
theorem Restorable.later {plan next : Plan} {id : ObjectId} (h : plan.Advances next)
    (hid : Restorable plan id) : Restorable next id := by
  cases hsub : id.kind.isSubElement with
  | true => exact .inl hsub
  | false => exact .inr (h.recreates hsub (hid.resolve_left (by simp [hsub])))

/-- The edits that bring back the children of a recreated object. -/
theorem restoreChildren_spec (extra : List DependencyPair) {owner : ObjectId} (he : e.Sound none)
    (hsub : owner.kind.isSubElement = false) (hrecreates : e.plan.Recreates owner)
    (hnext : e.applyAll (fun child plan => plan.restoreChild child) (e.plan.restored owner) =
      next) :
    Edits extra e next ∧
      (e.plan.Grounded → ∀ child ∈ e.plan.restored owner, next.plan.Returned child) := by
  subst hnext
  have hedit : ∀ next child, Edits extra e next → child ∈ e.plan.restored owner →
      Plan.Edit extra next.plan (next.plan.restoreChild child) := by
    intro next child hnext hchild
    have hadvances := hnext.edited.advances he.new
    refine Plan.restoreChild_edit ⟨owner, ?_, hadvances.recreates hsub hrecreates⟩
    exact hadvances.new.symm ▸ ((mem_restored he.new).1 hchild).1
  refine ⟨edits_applyAll hedit, fun hgrounded => ?_⟩
  exact applyAll_achieves hedit (p := fun plan child => plan.Returned child)
    (fun next child hnext _ => Plan.restoreChild_returns (hnext.edited.grounded hgrounded) child)
    fun hnext hlast => (hlast.edited.advances (hnext.sound he).new).returned

/-- The edits that bring the children of an object into the plan. -/
theorem exists_restore_edits (extra : List DependencyPair) {owner : ObjectId} (he : e.Sound none)
    (howner : Restorable e.plan owner) :
    ∃ middle, Edits extra e middle ∧
      e.restore owner = { middle with restored := middle.restored ++ [owner] } ∧
      (e.plan.Grounded → ∀ child, middle.plan.new.parent? child = some owner →
        child.kind ≠ .column → middle.plan.Returned child) ∧
      (∀ child, middle.plan.old.parent? child = some owner → child.kind.isSubElement = false →
        middle.plan.new.contains child = false → middle.plan.contains child = true) ∧
      (owner ∈ e.pending → owner ∈ middle.pending) := by
  cases hsub : owner.kind.isSubElement with
  | true =>
    -- A sub-element owns nothing, so there is nothing to do.
    have hrestored : e.plan.restored owner = [] := by
      rw [List.eq_nil_iff_forall_not_mem]
      intro child hchild
      exact he.new.parent?_ne_of_isSubElement hsub ((mem_restored he.new).1 hchild).1
    have hremoved : e.plan.removed owner = [] := by
      rw [List.eq_nil_iff_forall_not_mem]
      intro child hchild
      exact he.old.parent?_ne_of_isSubElement hsub ((mem_removed he.old).1 hchild).1
    refine ⟨e, .refl e, ?_,
      fun _ child hparent => absurd hparent (he.new.parent?_ne_of_isSubElement hsub),
      fun child hparent => absurd hparent (he.old.parent?_ne_of_isSubElement hsub), id⟩
    simp only [restore, hrestored, applyAll, List.foldl_nil, hremoved]
  | false =>
    have hrecreates : e.plan.Recreates owner := howner.resolve_left (by simp [hsub])
    obtain ⟨second, hsecond⟩ : ∃ second, e.applyAll (fun child plan => plan.restoreChild child)
      (e.plan.restored owner) = second := ⟨_, rfl⟩
    obtain ⟨hfirst, hreturned⟩ := restoreChildren_spec extra he hsub hrecreates hsecond
    have hsound := hfirst.sound he
    have hadvances := hfirst.edited.advances he.new
    have hnodup : (second.plan.removed owner).Nodup :=
      (hsound.old.nodup_children owner).sublist (List.Sublist.map _ List.filter_sublist)
    obtain ⟨hlast, hcontains⟩ := removeAll_spec extra hsound hnodup hsub
      (hadvances.recreates hsub hrecreates) fun child hchild => by
        obtain ⟨hparent, -, hgone, habsent⟩ := (mem_removed hsound.old).1 hchild
        exact ⟨Plan.get?_eq_none_iff.2 habsent, hparent, hgone⟩
    have hadvances' := hlast.edited.advances hsound.new
    refine ⟨_, hfirst.trans hlast, by simp only [restore, hsecond],
      fun hgrounded child hparent hkind => ?_, fun child hparent hchild hgone => ?_,
      fun hpending => ?_⟩
    · refine hadvances'.returned (hreturned hgrounded child ((mem_restored he.new).2 ⟨?_, hkind⟩))
      rwa [hadvances'.new, hadvances.new] at hparent
    · rw [hadvances'.old] at hparent
      rw [hadvances'.new] at hgone
      cases hin : second.plan.contains child with
      | true => exact hadvances'.contains hin
      | false => exact hcontains child ((mem_removed hsound.old).2 ⟨hparent, hchild, hgone, hin⟩)
    · obtain ⟨entry, hentry, htreatment⟩ :=
        (hadvances.trans he.new hadvances').recreates hsub hrecreates
      obtain ⟨hmem, hid⟩ := Plan.get?_some hentry
      refine mem_pending.2 ⟨⟨entry, hmem, htreatment, hid⟩, ?_⟩
      rw [(hfirst.trans hlast).restored]
      exact (mem_pending.1 hpending).2

/-- Bringing the children of an object into the plan. -/
theorem restore_spec (extra : List DependencyPair) {owner : ObjectId} (he : e.Sound none)
    (howner : Restorable e.plan owner) :
    Edits extra e { e.restore owner with restored := e.restored } ∧
      (e.restore owner).weight ≤ e.weight ∧
      (owner ∈ e.pending → (e.restore owner).weight < e.weight) := by
  obtain ⟨middle, hedits, heq, -, -, hpending⟩ := exists_restore_edits extra he howner
  have hweight := hedits.weight_le he.distinct
  rw [heq]
  exact ⟨hedits.reset e.restored, Nat.le_trans (weight_mark middle owner) hweight,
    fun h => Nat.lt_of_lt_of_le (weight_mark_pending (hpending h)) hweight⟩

/-- Bringing the children of several objects into the plan. -/
theorem restoreAll_spec (extra : List DependencyPair) {owners : List ObjectId} (he : e.Sound none)
    (howners : ∀ owner ∈ owners, Restorable e.plan owner) :
    Edits extra e { owners.foldl restore e with restored := e.restored } ∧
      (owners.foldl restore e).weight ≤ e.weight ∧
      ∀ owner, owners.head? = some owner → owner ∈ e.pending →
        (owners.foldl restore e).weight < e.weight := by
  induction owners generalizing e with
  | nil => exact ⟨.refl e, Nat.le_refl _, nofun⟩
  | cons owner owners ih =>
    obtain ⟨hfirst, hweight, hless⟩ :=
      restore_spec extra he (howners owner List.mem_cons_self)
    obtain ⟨hrest, hweight', -⟩ := ih (hfirst.sound he).reset fun other hother =>
      (howners other (List.mem_cons_of_mem _ hother)).later (hfirst.edited.advances he.new)
    refine ⟨hfirst.trans (hrest.reset e.restored), Nat.le_trans hweight' hweight, ?_⟩
    rintro _ ⟨⟩ hpending
    exact Nat.lt_of_le_of_lt hweight' (hless hpending)

/-- The children of what is pending may be brought into the plan. -/
theorem Sound.restorable {owner : ObjectId} (he : e.Sound none) (howner : owner ∈ e.pending) :
    Restorable e.plan owner := by
  obtain ⟨⟨entry, hentry, htreatment, rfl⟩, -⟩ := mem_pending.1 howner
  exact .inr ⟨entry, he.distinct.get?_of_mem hentry, htreatment⟩

/-- A step takes the first change from the queue, makes edits, and makes the weight smaller. -/
theorem step?_spec (he : e.Sound none) (h : e.step? extra = some next) :
    Edits extra { e with queue := e.queue.tail } { next with restored := e.restored } ∧
      next.Sound none ∧ next.weight < e.weight := by
  unfold step? at h
  split at h
  · next id trigger rest hqueue =>
    obtain rfl := Option.some.inj h
    have hpop := he.pop hqueue
    have hedits := hpop.refreshAll_edits extra
    refine ⟨?_, (hedits.sound hpop).discharge, ?_⟩
    · rw [hqueue]
      exact hedits.reset e.restored
    · refine Nat.lt_of_le_of_lt (hedits.weight_le hpop.distinct) ?_
      have huntouched : untouched { e with queue := rest } = e.untouched := rfl
      simp only [weight, huntouched, hqueue, List.length_cons]
      omega
  · cases h
  · next hqueue hnil =>
    obtain rfl := Option.some.inj h
    obtain ⟨owner, owners, howners⟩ := List.exists_cons_of_ne_nil hnil
    obtain ⟨hedits, -, hless⟩ := restoreAll_spec extra he fun _ => he.restorable
    refine ⟨?_, (hedits.sound he).reset, hless owner ?_ ?_⟩
    · have hempty : ({ e with queue := e.queue.tail } : Expansion) = e := by
        obtain ⟨plan, queue, restored⟩ := e
        obtain rfl : queue = [] := hqueue
        rfl
      rwa [hempty]
    · rw [howners, List.head?_cons]
    · rw [howners]
      exact List.mem_cons_self

/-- An expansion stays valid when the children of an object are brought into the plan. -/
theorem valid_restore {owner : ObjectId} (he : e.Valid extra none)
    (howner : Restorable e.plan owner) : (e.restore owner).Valid extra none := by
  obtain ⟨middle, hedits, heq, hreturned, hremoved, -⟩ := exists_restore_edits extra he.sound howner
  have hmiddle := hedits.valid he
  rw [heq]
  refine ⟨hmiddle.old, hmiddle.new, hmiddle.distinct, hmiddle.grounded, hmiddle.reaches,
    hmiddle.settled, fun {other child} hother hparent hkind => ?_,
    fun {other child} hother hparent hsub hgone => ?_⟩
  · rcases List.mem_append.1 hother with hother | hother
    · exact hmiddle.returned hother hparent hkind
    · exact hreturned he.grounded child (List.mem_singleton.1 hother ▸ hparent) hkind
  · rcases List.mem_append.1 hother with hother | hother
    · exact hmiddle.removed hother hparent hsub hgone
    · exact hremoved child (List.mem_singleton.1 hother ▸ hparent) hsub hgone

/-- An expansion stays valid when the children of several objects are brought into the plan. -/
theorem valid_restoreAll {owners : List ObjectId} (he : e.Valid extra none)
    (howners : ∀ owner ∈ owners, Restorable e.plan owner) :
    (owners.foldl restore e).Valid extra none := by
  induction owners generalizing e with
  | nil => exact he
  | cons owner owners ih =>
    have howner := howners owner List.mem_cons_self
    obtain ⟨hfirst, -⟩ := restore_spec extra he.sound howner
    refine ih (valid_restore he howner) fun other hother => ?_
    exact (howners other (List.mem_cons_of_mem _ hother)).later (hfirst.edited.advances he.new)

/-- A step keeps an expansion valid. -/
theorem valid_step? (he : e.Valid extra none) (h : e.step? extra = some next) :
    next.Valid extra none := by
  unfold step? at h
  split at h
  · next hqueue => exact Option.some.inj h ▸ (he.pop hqueue).refreshAll
  · cases h
  · exact Option.some.inj h ▸ valid_restoreAll he fun _ => he.sound.restorable

/-- There are no more steps when nothing is queued and nothing pending. -/
theorem step?_eq_none : e.step? extra = none ↔ e.queue = [] ∧ e.pending = [] := by
  unfold step?
  split
  · next hqueue => simp [hqueue]
  · next hqueue hpending => simp [hqueue, hpending]
  · next hqueue hnil =>
    exact ⟨fun hnone => (by cases hnone), fun hend => absurd hend.2 hnil⟩

/-- What every step keeps is true of whatever a run comes to. -/
theorem run_induction {p : Expansion → Prop} {fuel : Nat} (he : p e)
    (hstep : ∀ {e next}, p e → e.step? extra = some next → p next) : p (run extra fuel e) := by
  induction fuel generalizing e with
  | zero => exact he
  | succ fuel ih =>
    unfold run
    split
    · next hnext => exact ih (hstep he hnext)
    · exact he

/-- A run that is long enough ends with no step left. -/
theorem step?_run {fuel : Nat} (he : e.Sound none) (hfuel : e.weight ≤ fuel) :
    (run extra fuel e).step? extra = none := by
  induction fuel generalizing e with
  | zero =>
    cases hstep : e.step? extra with
    | none => rw [run, hstep]
    | some next => exact absurd (step?_spec he hstep).2.2 (by omega)
  | succ fuel ih =>
    unfold run
    split
    · next hstep =>
      obtain ⟨-, hsound, hweight⟩ := step?_spec he hstep
      exact ih hsound (by omega)
    · assumption

/-- A run keeps an expansion valid and edits its plan. -/
theorem run_spec {fuel : Nat} (he : e.Valid extra none) :
    (run extra fuel e).Valid extra none ∧ Plan.Edited extra e.plan (run extra fuel e).plan := by
  refine run_induction (p := fun next => next.Valid extra none ∧ Plan.Edited extra e.plan next.plan)
    ⟨he, .refl e.plan⟩ fun {middle next} hmiddle hstep => ?_
  obtain ⟨hedits, -⟩ := step?_spec hmiddle.1.sound hstep
  exact ⟨valid_step? hmiddle.1 hstep, hmiddle.2.trans hedits.edited⟩

/-- An expansion starts with no more weight than the steps that are allowed for. -/
theorem weight_start (plan : Plan) :
    (start plan).weight ≤ 3 * (plan.old.size + plan.new.size + plan.entries.length) := by
  have hqueue : ∀ entries : List PlanEntry,
      (entries.filterMap fun entry => entry.treatment.trigger?.map fun t => (entry.id, t)).length +
        costs [] entries ≤ 3 * entries.length := by
    intro entries
    induction entries with
    | nil => simp [costs]
    | cons entry entries ih =>
      have hcost := cost_le [] entry
      rw [List.filterMap_cons, costs, List.length_cons]
      split
      · omega
      · rw [List.length_cons]
        omega
  have huntouched : (start plan).untouched ≤ plan.old.size + plan.new.size := by
    refine Nat.le_trans List.countP_le_length ?_
    rw [List.length_append]
    exact Nat.le_refl _
  have := hqueue plan.entries
  simp only [weight, start] at huntouched ⊢
  omega

/-- What is queued at the start are the changes that entries are. -/
theorem mem_queue_start {plan : Plan} {id : ObjectId} {trigger : Trigger} :
    (id, trigger) ∈ (start plan).queue ↔
      ∃ entry ∈ plan.entries, entry.id = id ∧ entry.treatment.trigger? = some trigger := by
  simp only [start, List.mem_filterMap, Option.map_eq_some_iff, Prod.mk.injEq]
  constructor
  · rintro ⟨entry, hentry, _, htrigger, rfl, rfl⟩
    exact ⟨entry, hentry, rfl, htrigger⟩
  · rintro ⟨entry, hentry, rfl, htrigger⟩
    exact ⟨entry, hentry, trigger, htrigger, rfl, rfl⟩

/-- The expansion of a plan starts sound. -/
theorem sound_start {plan : Plan} (hold : plan.old.WellFormed) (hnew : plan.new.WellFormed)
    (hplan : plan.Distinct) : (start plan).Sound none := by
  refine ⟨hold, hnew, hplan, fun {id trigger} hqueued => ?_⟩
  obtain ⟨entry, hentry, rfl, htrigger⟩ := mem_queue_start.1 (hqueued.resolve_right nofun)
  refine .inl ⟨entry, hplan.get?_of_mem hentry, .inr ?_⟩
  rw [PlanEntry.trigger?, htrigger]
  rfl

end Expansion

/-! ## Complete plans -/

/-- Nothing is left to do: what goes away or changes in place has all its dependents looked after,
and what is recreated has its children back. -/
structure Plan.Complete (extra : List DependencyPair) (plan : Plan) : Prop where
  settled : ∀ {id entry trigger}, plan.get? id = some entry → entry.trigger? = some trigger →
    ∀ dependent ∈ plan.dependents extra id, plan.Settled trigger dependent
  returned : ∀ {owner child}, plan.Recreates owner → plan.new.parent? child = some owner →
    child.kind ≠ .column → plan.Returned child
  removed : ∀ {owner child}, plan.Recreates owner → plan.old.parent? child = some owner →
    child.kind.isSubElement = false → plan.new.contains child = false → plan.contains child = true

/-- A plan before it is expanded: its entries are of different objects of well-formed snapshots,
their treatments fit, and all of them were selected. -/
structure Plan.Initial (plan : Plan) : Prop where
  old : plan.old.WellFormed
  new : plan.new.WellFormed
  distinct : plan.Distinct
  grounded : plan.Grounded
  selected : ∀ entry ∈ plan.entries, entry.origin = .selected

variable {plan : Plan} {extra : List DependencyPair}

/-- The expansion of a plan starts valid. -/
theorem Plan.Initial.valid_start (h : plan.Initial) (extra : List DependencyPair) :
    (Expansion.start plan).Valid extra none := by
  have hsound := Expansion.sound_start h.old h.new h.distinct
  refine ⟨h.old, h.new, h.distinct, h.grounded, hsound.reaches,
    fun {id entry trigger} hentry htrigger => .inl (.inl ?_), nofun, nofun⟩
  obtain ⟨hmem, rfl⟩ := Plan.get?_some hentry
  refine Expansion.mem_queue_start.2 ⟨entry, hmem, rfl, ?_⟩
  rw [PlanEntry.trigger?, h.selected entry hmem] at htrigger
  simpa using htrigger

/-- Expansion edits a plan until it is complete. -/
theorem Plan.Initial.expand (h : plan.Initial) (extra : List DependencyPair) :
    Plan.Edited extra plan (plan.expand extra) ∧ (plan.expand extra).Complete extra := by
  have hstart := h.valid_start extra
  obtain ⟨hvalid, hedited⟩ := Expansion.run_spec hstart
  obtain ⟨hqueue, hpending⟩ := Expansion.step?_eq_none.1
    (Expansion.step?_run hstart.sound (Nat.le_succ_of_le (Expansion.weight_start plan)))
  have hrestored : ∀ {owner}, (plan.expand extra).Recreates owner →
      owner ∈ (Expansion.run extra (3 * (plan.old.size + plan.new.size + plan.entries.length) + 1)
        (.start plan)).restored := by
    rintro owner ⟨entry, hentry, htreatment⟩
    by_contra hnot
    obtain ⟨hmem, hid⟩ := Plan.get?_some hentry
    have hin := Expansion.mem_pending.2 ⟨⟨entry, hmem, htreatment, hid⟩, hnot⟩
    rw [hpending] at hin
    exact List.not_mem_nil hin
  refine ⟨hedited, fun {id entry trigger} hentry htrigger => ?_,
    fun howner => hvalid.returned (hrestored howner),
    fun howner => hvalid.removed (hrestored howner)⟩
  refine (hvalid.settled hentry htrigger).resolve_left ?_
  rw [hqueue]
  rintro (hin | hdue)
  · exact List.not_mem_nil hin
  · cases hdue

end SchemaMigration
