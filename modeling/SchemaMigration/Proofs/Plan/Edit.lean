import SchemaMigration.Proofs.Plan.Entries

/-!
# Edits of a plan

Expansion changes a plan by one edit after the other. `Plan.Edit` says everything that an edit can
do, and why it is made: an object may be forced into the plan since something that it needs changes
(`Plan.Forces`), or since its owner is recreated (`Plan.OwnerRecreated`). What the functions of the
expansion do are edits. An edit never takes anything back (`Plan.Advances`): an entry keeps its
treatment unless an alteration turns into a recreation, or a sub-element is created again with its
recreated owner.
-/

namespace SchemaMigration

/-- How an entry reaches what depends on its object, if it does: refreshing in place reaches on. -/
def PlanEntry.trigger? (entry : PlanEntry) : Option Trigger :=
  entry.treatment.trigger? <|>
    if entry.treatment = .alter ∧ entry.origin = .refreshedInPlace then some .inPlace else none

/-- What goes away reaches its dependents by its removal. -/
theorem PlanEntry.trigger?_of_drops {entry : PlanEntry} (h : entry.treatment.drops = true) :
    entry.trigger? = some .removal := by
  unfold PlanEntry.trigger?
  cases htreatment : entry.treatment <;> rw [htreatment] at h <;> first | rfl | cases h

namespace Plan

variable {plan next : Plan} {extra : List DependencyPair} {id : ObjectId}

/-! ## Why objects are touched -/

/-- The statement that refreshes an object in place, if the change that reaches it leaves that. -/
def inPlace? (plan : Plan) (trigger : Trigger) (id : ObjectId) : Option String :=
  if trigger = .inPlace then (plan.new.get? id).bind plan.new.dialect.refresh? else none

/-- An object is recreated. -/
def Recreates (plan : Plan) (id : ObjectId) : Prop :=
  ∃ entry, plan.get? id = some entry ∧ entry.treatment = .recreate

/-- The owner that an object has in the new snapshot is recreated. -/
def OwnerRecreated (plan : Plan) (id : ObjectId) : Prop :=
  ∃ owner, plan.new.parent? id = some owner ∧ plan.Recreates owner

/-- A sub-element of the old snapshot is created again with its recreated owner. -/
def Restores (plan : Plan) (id : ObjectId) : Prop :=
  (∃ entry, plan.get? id = some entry ∧ entry.treatment = .create) ∧
    id.kind.isSubElement = true ∧ plan.old.contains id = true ∧ plan.OwnerRecreated id

/-- An object changes in a way that reaches its dependents by a trigger: it goes away, for good or
to come back, or it is changed in place. -/
def Reaches (plan : Plan) (id : ObjectId) (trigger : Trigger) : Prop :=
  (∃ entry, plan.get? id = some entry ∧
    (entry.treatment.drops = true ∨ entry.trigger? = some trigger)) ∨ plan.Restores id

/-- Something that an object needs changes, and the object cannot stay. -/
def Forces (plan : Plan) (extra : List DependencyPair) (id : ObjectId) : Prop :=
  ∃ changed trigger, plan.Reaches changed trigger ∧ id ∈ plan.dependents extra changed ∧
    plan.inPlace? trigger id = none

/-! ## Edits -/

/-- The edits of a plan, with the change that each queues. -/
inductive Edit (extra : List DependencyPair) (plan : Plan) : Plan × Option Change → Prop
  | keep : Edit extra plan (plan, none)
  /-- An object that was to be altered is recreated. -/
  | upgrade {id : ObjectId} {entry : PlanEntry} (found : plan.get? id = some entry)
      (alters : entry.treatment.alters = true)
      (cause : plan.Forces extra id ∨ plan.OwnerRecreated id) :
      Edit extra plan (plan.reassign id .recreate, some (id, .removal))
  /-- A sub-element is created again with its owner, whatever was to be done with it. -/
  | restore {id : ObjectId} {entry : PlanEntry} (found : plan.get? id = some entry)
      (sub : id.kind.isSubElement = true) (existed : plan.old.contains id = true)
      (cause : plan.OwnerRecreated id) :
      Edit extra plan (plan.reassign id .create, none)
  /-- An object that is gone in the new snapshot is dropped. -/
  | drop {id : ObjectId} {origin : Origin} (absent : plan.get? id = none)
      (existed : plan.old.contains id = true) (gone : plan.new.contains id = false)
      (cause : origin = .refreshed ∧ plan.Forces extra id ∨ origin = .recreatedChild ∧
        ∃ owner, plan.old.parent? id = some owner ∧ plan.Recreates owner) :
      Edit extra plan (plan.derive id .drop origin [], some (id, .removal))
  /-- An object that stays is recreated. -/
  | recreate {id : ObjectId} {origin : Origin} (absent : plan.get? id = none)
      (existed : plan.old.contains id = true) (stays : plan.new.contains id = true)
      (cause : origin = .refreshed ∧ plan.Forces extra id ∨
        origin = .recreatedChild ∧ id.kind.isSubElement = false ∧ plan.OwnerRecreated id) :
      Edit extra plan (plan.derive id .recreate origin [], some (id, .removal))
  /-- An object is created with its owner. -/
  | create {id : ObjectId} (absent : plan.get? id = none) (stays : plan.new.contains id = true)
      (fresh : id.kind.isSubElement = true ∨ plan.old.contains id = false)
      (cause : plan.OwnerRecreated id) :
      Edit extra plan (plan.derive id .create .recreatedChild [], none)
  /-- An object is refreshed in place. -/
  | refreshInPlace {id changed : ObjectId} {statement : String} (absent : plan.get? id = none)
      (existed : plan.old.contains id = true)
      (refreshed : plan.inPlace? .inPlace id = some statement)
      (reached : plan.Reaches changed .inPlace) (dependent : id ∈ plan.dependents extra changed) :
      Edit extra plan (plan.derive id .alter .refreshedInPlace [statement], some (id, .inPlace))

/-- What has a statement that refreshes it is there. -/
theorem contains_of_inPlace? {trigger : Trigger} {statement : String}
    (h : plan.inPlace? trigger id = some statement) : plan.new.contains id = true := by
  unfold inPlace? at h
  split at h
  · obtain ⟨s, hs, -⟩ := Option.bind_eq_some_iff.1 h
    exact Snapshot.contains_iff.2 ⟨s, hs⟩
  · cases h

/-- What refreshing does with an object depends on its entry and on whether it may stay. -/
theorem refresh_eq (trigger : Trigger) (id : ObjectId) :
    plan.refresh trigger id =
      if plan.droppedWithTable id || !plan.old.contains id then (plan, none)
      else
        match plan.get? id, plan.inPlace? trigger id with
        | some entry, none =>
          if entry.treatment.alters then (plan.reassign id .recreate, some (id, .removal))
          else (plan, none)
        | some _, some _ => (plan, none)
        | none, some statement =>
          (plan.derive id .alter .refreshedInPlace [statement], some (id, .inPlace))
        | none, none =>
          (plan.derive id (if plan.new.contains id then .recreate else .drop) .refreshed [],
            some (id, .removal)) := rfl

/-- Refreshing a dependent of a changed object is an edit. -/
theorem refresh_edit {changed : ObjectId} {trigger : Trigger}
    (hreached : plan.Reaches changed trigger) (hid : id ∈ plan.dependents extra changed) :
    Edit extra plan (plan.refresh trigger id) := by
  have hforces : plan.inPlace? trigger id = none → plan.Forces extra id := fun h =>
    ⟨changed, trigger, hreached, hid, h⟩
  rw [refresh_eq]
  split
  · exact .keep
  · next hskip =>
    have hexisted : plan.old.contains id = true := by
      cases h : plan.old.contains id <;> simp_all
    split
    · next entry hfound hin =>
      split
      · next halters => exact .upgrade hfound halters (.inl (hforces hin))
      · exact .keep
    · exact .keep
    · next statement hfound hin =>
      have htrigger : trigger = .inPlace := by
        unfold inPlace? at hin
        split at hin
        · assumption
        · cases hin
      subst htrigger
      exact .refreshInPlace hfound hexisted hin hreached hid
    · next hfound hin =>
      cases hnew : plan.new.contains id with
      | true => exact .recreate hfound hexisted hnew (.inl ⟨rfl, hforces hin⟩)
      | false => exact .drop hfound hexisted hnew (.inl ⟨rfl, hforces hin⟩)

/-- Bringing back a child of a recreated object is an edit. -/
theorem restoreChild_edit (howner : plan.OwnerRecreated id) :
    Edit extra plan (plan.restoreChild id) := by
  have hstays : plan.new.contains id = true :=
    Snapshot.contains_of_parent? howner.choose_spec.1
  unfold restoreChild
  cases hfound : plan.get? id with
  | some entry =>
    cases hsub : id.kind.isSubElement with
    | true =>
      simp only [Bool.and_eq_true, decide_eq_true_eq]
      split
      · next h => exact .restore hfound hsub h.2 howner
      · exact .keep
    | false =>
      dsimp only
      split
      · next halters => exact .upgrade hfound halters (.inr howner)
      · exact .keep
  | none =>
    cases hsub : id.kind.isSubElement with
    | true => exact .create hfound hstays (.inl hsub) howner
    | false =>
      cases hold : plan.old.contains id with
      | true =>
        simp only [if_true]
        exact .recreate hfound hold hstays (.inr ⟨rfl, hsub, howner⟩)
      | false =>
        simp only [Bool.false_eq_true, if_false]
        exact .create hfound hstays (.inr hold) howner

/-- Dropping a child that a recreated object no longer has is an edit. -/
theorem removeChild_edit {owner : ObjectId} (habsent : plan.get? id = none)
    (hparent : plan.old.parent? id = some owner) (hgone : plan.new.contains id = false)
    (hrecreates : plan.Recreates owner) : Edit extra plan (plan.removeChild id) :=
  .drop habsent (Snapshot.contains_of_parent? hparent) hgone
    (.inr ⟨rfl, owner, hparent, hrecreates⟩)

/-! ## What edits preserve -/

/-- A plan that another one came from: entries keep their treatment, but for alterations that have
become recreations and for sub-elements that are created again with their owner. -/
structure Advances (plan next : Plan) : Prop where
  old : next.old = plan.old
  new : next.new = plan.new
  entry : ∀ {id entry}, plan.get? id = some entry → ∃ later, next.get? id = some later ∧
    later.origin = entry.origin ∧
    (later = entry ∨ entry.treatment.alters = true ∧ later.treatment = .recreate ∨ next.Restores id)

/-- An object that can own others is still recreated later on. -/
theorem Advances.recreates (h : plan.Advances next) (hid : id.kind.isSubElement = false)
    (hrecreates : plan.Recreates id) : next.Recreates id := by
  obtain ⟨entry, hentry, htreatment⟩ := hrecreates
  obtain ⟨later, hlater, -, rfl | ⟨halters, -⟩ | hrestores⟩ := h.entry hentry
  · exact ⟨later, hlater, htreatment⟩
  · rw [htreatment] at halters; cases halters
  · rw [hrestores.2.1] at hid; cases hid

section
variable (hnew : plan.new.WellFormed)
include hnew

/-- The owner of an object is still recreated later on. -/
theorem Advances.ownerRecreated (h : plan.Advances next) (howner : plan.OwnerRecreated id) :
    next.OwnerRecreated id := by
  obtain ⟨owner, hparent, hrecreates⟩ := howner
  have hnot := hnew.not_isSubElement_of_parent? hparent
  exact ⟨owner, h.new.symm ▸ hparent, h.recreates hnot hrecreates⟩

/-- A sub-element that is created again with its owner still is later on. -/
theorem Advances.restores (h : plan.Advances next) (hrestores : plan.Restores id) :
    next.Restores id := by
  obtain ⟨⟨entry, hentry, htreatment⟩, hsub, hold, howner⟩ := hrestores
  obtain ⟨later, hlater, -, rfl | ⟨halters, -⟩ | hrestores⟩ := h.entry hentry
  · exact ⟨⟨later, hlater, htreatment⟩, hsub, h.old.symm ▸ hold, h.ownerRecreated hnew howner⟩
  · rw [htreatment] at halters; cases halters
  · exact hrestores

/-- A change that reaches dependents still does so later on. -/
theorem Advances.reaches (h : plan.Advances next) {trigger : Trigger}
    (hreaches : plan.Reaches id trigger) : next.Reaches id trigger := by
  rcases hreaches with ⟨entry, hentry, hreaches⟩ | hrestores
  · obtain ⟨later, hlater, -, rfl | ⟨-, hrecreate⟩ | hrestores⟩ := h.entry hentry
    · exact .inl ⟨later, hlater, hreaches⟩
    · exact .inl ⟨later, hlater, .inl (by rw [hrecreate]; rfl)⟩
    · exact .inr hrestores
  · exact .inr (h.restores hnew hrestores)

omit hnew in
/-- The dependents of an object are the same later on. -/
theorem Advances.dependents (h : plan.Advances next) (id : ObjectId) :
    next.dependents extra id = plan.dependents extra id := by
  simp only [Plan.dependents, h.old]

omit hnew in
/-- What can be refreshed in place is the same later on. -/
theorem Advances.inPlace? (h : plan.Advances next) (trigger : Trigger) (id : ObjectId) :
    next.inPlace? trigger id = plan.inPlace? trigger id := by
  simp only [Plan.inPlace?, h.new]

/-- What is forced into a plan still is later on. -/
theorem Advances.forces (h : plan.Advances next) (hforces : plan.Forces extra id) :
    next.Forces extra id := by
  obtain ⟨changed, trigger, hreaches, hid, hin⟩ := hforces
  exact ⟨changed, trigger, h.reaches hnew hreaches, by rwa [h.dependents], by rwa [h.inPlace?]⟩

omit hnew in
/-- A plan advances to itself. -/
theorem Advances.refl (plan : Plan) : plan.Advances plan :=
  ⟨rfl, rfl, fun hentry => ⟨_, hentry, rfl, .inl rfl⟩⟩

/-- A plan that advances twice has advanced. -/
theorem Advances.trans {last : Plan} (h : plan.Advances next) (h' : next.Advances last) :
    plan.Advances last := by
  refine ⟨h'.old.trans h.old, h'.new.trans h.new, fun hentry => ?_⟩
  obtain ⟨later, hlater, horigin, hcases⟩ := h.entry hentry
  obtain ⟨final, hfinal, horigin', hcases'⟩ := h'.entry hlater
  refine ⟨final, hfinal, horigin'.trans horigin, ?_⟩
  rcases hcases with rfl | ⟨halters, hrecreate⟩ | hrestores
  · exact hcases'
  · rcases hcases' with rfl | ⟨halters', -⟩ | hrestores
    · exact .inr (.inl ⟨halters, hrecreate⟩)
    · rw [hrecreate] at halters'; cases halters'
    · exact .inr (.inr hrestores)
  · exact .inr (.inr (h'.restores (h.new.symm ▸ hnew) hrestores))

omit hnew in
/-- Adding an entry for an identity that had none advances the plan. -/
theorem Advances.append {entry : PlanEntry} (h : plan.get? entry.id = none) :
    plan.Advances { plan with entries := plan.entries ++ [entry] } := by
  refine ⟨rfl, rfl, fun {other found} hfound => ⟨found, ?_, rfl, .inl rfl⟩⟩
  rw [get?_append h, if_neg, hfound]
  rintro rfl
  rw [h] at hfound
  cases hfound

/-- An edit advances the plan. -/
theorem Edit.advances {result : Plan × Option Change} (h : Edit extra plan result) :
    plan.Advances result.1 := by
  cases h with
  | keep => exact .refl plan
  | @upgrade id entry found alters cause =>
    refine ⟨rfl, rfl, fun {other entry'} hentry => ?_⟩
    by_cases hid : other = id
    · subst hid
      obtain rfl := Option.some.inj (found.symm.trans hentry)
      exact ⟨_, get?_reassign_self found, rfl, .inr (.inl ⟨alters, rfl⟩)⟩
    · exact ⟨entry', by rw [get?_reassign, if_neg hid, hentry], rfl, .inl rfl⟩
  | @restore id entry found sub existed cause =>
    refine ⟨rfl, rfl, fun {other entry'} hentry => ?_⟩
    by_cases hid : other = id
    · subst hid
      obtain rfl := Option.some.inj (found.symm.trans hentry)
      obtain ⟨owner, hparent, recreated, hfound, htreatment⟩ := cause
      have hnot := hnew.not_isSubElement_of_parent? hparent
      have hne : owner ≠ other := by rintro rfl; rw [sub] at hnot; cases hnot
      have hcreated : (plan.reassign other .create).get? other =
          some { entry with treatment := .create, statements := [] } := get?_reassign_self found
      refine ⟨_, hcreated, rfl, .inr (.inr ⟨⟨_, hcreated, rfl⟩, sub, existed, owner, hparent, ?_⟩)⟩
      exact ⟨recreated, by rw [get?_reassign, if_neg hne, hfound], htreatment⟩
    · exact ⟨entry', by rw [get?_reassign, if_neg hid, hentry], rfl, .inl rfl⟩
  | drop absent | recreate absent | create absent | refreshInPlace absent => exact .append absent

end

/-- An edit keeps the entries apart. -/
theorem Edit.distinct {result : Plan × Option Change} (h : Edit extra plan result)
    (hplan : plan.Distinct) : result.1.Distinct := by
  cases h with
  | keep => exact hplan
  | upgrade | restore => rw [Distinct, map_id_reassign]; exact hplan
  | drop absent | recreate absent | create absent | refreshInPlace absent =>
    exact hplan.append absent

/-- An edit keeps treatments fitting. -/
theorem Edit.grounded {result : Plan × Option Change} (h : Edit extra plan result)
    (hplan : plan.Grounded) : result.1.Grounded := by
  cases h with
  | keep => exact hplan
  | @upgrade id entry found alters =>
    have hentry := hplan id entry found
    refine hplan.reassign found
      ⟨fun _ => hentry.old fun h => ?_, fun _ => hentry.new fun h => ?_, by simp⟩ <;>
      rw [h] at alters <;> cases alters
  | @restore id entry found _ _ cause =>
    have hid := (get?_some found).2
    refine hplan.reassign found ⟨fun h => absurd rfl h, fun _ => ?_, by simp⟩
    exact hid.symm ▸ Snapshot.contains_of_parent? cause.choose_spec.1
  | drop absent existed =>
    exact hplan.append absent ⟨fun _ => existed, fun h => absurd rfl h, by simp⟩
  | recreate absent existed stays =>
    exact hplan.append absent ⟨fun _ => existed, fun _ => stays, by simp⟩
  | create absent stays =>
    exact hplan.append absent ⟨fun h => absurd rfl h, fun _ => stays, by simp⟩
  | refreshInPlace absent existed refreshed =>
    exact hplan.append absent ⟨fun _ => existed, fun _ => contains_of_inPlace? refreshed, by simp⟩

/-- Creations are of objects that are `fresh` or come back with their owner, and what is dropped for
good is `gone`. -/
structure Truthful (plan : Plan) (fresh gone : ObjectId → Prop) : Prop where
  create : ∀ {id entry}, plan.get? id = some entry → entry.treatment = .create →
    fresh id ∨ id.kind.isSubElement = true ∧ plan.OwnerRecreated id
  drop : ∀ {id entry}, plan.get? id = some entry → entry.treatment = .drop → gone id

/-- A plan in which only the entry of one identity is another one is truthful if that entry is. -/
theorem Truthful.update {fresh gone : ObjectId → Prop} {entry : PlanEntry}
    (hplan : plan.Truthful fresh gone) (hnew : plan.new.WellFormed) (hadvances : plan.Advances next)
    (hget : ∀ other, next.get? other = if other = id then some entry else plan.get? other)
    (hcreate : entry.treatment = .create →
      fresh id ∨ id.kind.isSubElement = true ∧ plan.OwnerRecreated id)
    (hdrop : entry.treatment = .drop → gone id) : next.Truthful fresh gone := by
  refine ⟨fun {other entry'} hentry htreatment => ?_,
    fun {other entry'} hentry htreatment => ?_⟩ <;>
    rw [hget] at hentry <;> split at hentry
  · next heq =>
    obtain rfl := Option.some.inj hentry
    exact heq ▸ (hcreate htreatment).imp_right (.imp_right (hadvances.ownerRecreated hnew))
  · exact (hplan.create hentry htreatment).imp_right (.imp_right (hadvances.ownerRecreated hnew))
  · next heq =>
    obtain rfl := Option.some.inj hentry
    exact heq ▸ hdrop htreatment
  · exact hplan.drop hentry htreatment

/-- An edit creates and drops in good faith. -/
theorem Edit.truthful {fresh gone : ObjectId → Prop} {result : Plan × Option Change}
    (h : Edit extra plan result) (hnew : plan.new.WellFormed) (hplan : plan.Truthful fresh gone)
    (hfresh : ∀ {id}, plan.old.contains id = false → plan.new.contains id = true → fresh id)
    (hgone : ∀ {id}, plan.old.contains id = true → plan.new.contains id = false → gone id) :
    result.1.Truthful fresh gone := by
  have hadvances := h.advances hnew
  cases h with
  | keep => exact hplan
  | upgrade found =>
    exact hplan.update hnew hadvances (get?_reassign_of_get? found) (by simp) (by simp)
  | restore found sub _ cause =>
    exact hplan.update hnew hadvances (get?_reassign_of_get? found) (fun _ => .inr ⟨sub, cause⟩)
      (by simp)
  | drop absent existed isGone =>
    exact hplan.update hnew hadvances (get?_derive absent) (by simp) fun _ => hgone existed isGone
  | recreate absent => exact hplan.update hnew hadvances (get?_derive absent) (by simp) (by simp)
  | create absent stays isFresh cause =>
    refine hplan.update hnew hadvances (get?_derive absent) (fun _ => ?_) (by simp)
    exact isFresh.elim (fun hsub => .inr ⟨hsub, cause⟩) fun hold => .inl (hfresh hold stays)
  | refreshInPlace absent =>
    exact hplan.update hnew hadvances (get?_derive absent) (by simp) (by simp)

/-! ## What edits queue -/

/-- A change that is queued reaches the dependents of its object. -/
theorem Edit.reaches_of_queued {trigger : Trigger}
    (h : Edit extra plan (next, some (id, trigger))) : next.Reaches id trigger := by
  cases h with
  | @upgrade _ entry found =>
    exact .inl ⟨_, get?_reassign_self found, .inl rfl⟩
  | drop absent => exact .inl ⟨_, get?_derive_self absent, .inl rfl⟩
  | recreate absent => exact .inl ⟨_, get?_derive_self absent, .inl rfl⟩
  | refreshInPlace absent => exact .inl ⟨_, get?_derive_self absent, .inr rfl⟩

/-- An entry that reaches dependents did so before, or the edit queues it. -/
theorem Edit.trigger?_or_queued {change : Option Change} (h : Edit extra plan (next, change))
    {entry : PlanEntry} {trigger : Trigger} (hentry : next.get? id = some entry)
    (htrigger : entry.trigger? = some trigger) :
    (∃ before, plan.get? id = some before ∧ before.trigger? = some trigger) ∨
      change = some (id, trigger) := by
  cases h with
  | keep => exact .inl ⟨entry, hentry, htrigger⟩
  | upgrade found =>
    rw [get?_reassign, found] at hentry
    split at hentry
    · next heq =>
      obtain rfl := Option.some.inj hentry
      obtain rfl := Option.some.inj htrigger
      exact .inr (by rw [heq])
    · exact .inl ⟨entry, hentry, htrigger⟩
  | restore found =>
    rw [get?_reassign, found] at hentry
    split at hentry
    · obtain rfl := Option.some.inj hentry
      cases htrigger
    · exact .inl ⟨entry, hentry, htrigger⟩
  | drop absent | recreate absent | create absent | refreshInPlace absent =>
    rw [get?_derive absent] at hentry
    split at hentry
    · next heq =>
      obtain rfl := Option.some.inj hentry
      first
      | cases htrigger; done
      | obtain rfl := Option.some.inj htrigger
        exact .inr (by rw [heq])
    · exact .inl ⟨entry, hentry, htrigger⟩

/-! ## Dependents that are looked after -/

/-- A dependent of a changed object is looked after: it goes away with its table, or it has an entry
that does more than alter it, unless it may be refreshed in place. -/
def Settled (plan : Plan) (trigger : Trigger) (id : ObjectId) : Prop :=
  plan.droppedWithTable id = true ∨ plan.old.contains id = false ∨
    ∃ entry, plan.get? id = some entry ∧
      (entry.treatment.alters = true → (plan.inPlace? trigger id).isSome = true)

/-- Refreshing looks after a dependent. -/
theorem refresh_settles (trigger : Trigger) (id : ObjectId) :
    (plan.refresh trigger id).1.Settled trigger id := by
  rw [refresh_eq]
  split
  · next hskip =>
    rcases Bool.or_eq_true_iff.1 hskip with hdropped | hold
    · exact .inl hdropped
    · exact .inr (.inl (by simpa using hold))
  · split
    · next entry hfound _ =>
      split
      · exact .inr (.inr ⟨_, get?_reassign_self hfound, by simp [Treatment.alters]⟩)
      · next halters => exact .inr (.inr ⟨entry, hfound, fun h => absurd h halters⟩)
    · next entry _ hfound hin => exact .inr (.inr ⟨entry, hfound, fun _ => by rw [hin]; rfl⟩)
    · next statement hfound hin =>
      refine .inr (.inr ⟨_, get?_derive_self hfound, fun _ => ?_⟩)
      exact Option.isSome_iff_exists.2 ⟨statement, hin⟩
    · next hfound _ =>
      refine .inr (.inr ⟨_, get?_derive_self hfound, ?_⟩)
      cases plan.new.contains id <;> simp [Treatment.alters]

/-- A sub-element whose table is dropped still goes away with it later on. -/
theorem Advances.droppedWithTable (h : plan.Advances next) (hold : plan.old.WellFormed)
    (hid : plan.old.contains id = true) (hdropped : plan.droppedWithTable id = true) :
    next.droppedWithTable id = true := by
  obtain ⟨hsub, p, hp, entry, hentry, hdrops⟩ := (droppedWithTable_iff hold hid).1 hdropped
  have hnot := hold.not_isSubElement_of_parent? hp
  rw [droppedWithTable_iff (h.old.symm ▸ hold) (h.old.symm ▸ hid), h.old]
  obtain ⟨later, hlater, -, rfl | ⟨-, hrecreate⟩ | hrestores⟩ := h.entry hentry
  · exact ⟨hsub, p, hp, later, hlater, hdrops⟩
  · exact ⟨hsub, p, hp, later, hlater, by rw [hrecreate]; rfl⟩
  · rw [hrestores.2.1] at hnot; cases hnot

/-- A dependent that is looked after still is later on. -/
theorem Advances.settled (h : plan.Advances next) (hold : plan.old.WellFormed)
    {trigger : Trigger} (hsettled : plan.Settled trigger id) : next.Settled trigger id := by
  rcases hsettled with hdropped | hid | ⟨entry, hentry, halters⟩
  · cases hid : plan.old.contains id with
    | true => exact .inl (h.droppedWithTable hold hid hdropped)
    | false => exact .inr (.inl (h.old.symm ▸ hid))
  · exact .inr (.inl (h.old.symm ▸ hid))
  · obtain ⟨later, hlater, -, rfl | ⟨-, hrecreate⟩ | ⟨⟨created, hcreated, htreatment⟩, -⟩⟩ :=
      h.entry hentry
    · exact .inr (.inr ⟨later, hlater, by rwa [h.inPlace?]⟩)
    · exact .inr (.inr ⟨later, hlater, by simp [hrecreate, Treatment.alters]⟩)
    · exact .inr (.inr ⟨created, hcreated, by simp [htreatment, Treatment.alters]⟩)

/-! ## Children that come back -/

/-- A child of a recreated object comes back: it has an entry that does more than alter it, and
creates it if it is a sub-element of the old snapshot. -/
def Returned (plan : Plan) (id : ObjectId) : Prop :=
  ∃ entry, plan.get? id = some entry ∧ entry.treatment.alters = false ∧
    (id.kind.isSubElement = true → plan.old.contains id = true → entry.treatment = .create)

/-- A child that is restored comes back. -/
theorem restoreChild_returns (hplan : plan.Grounded) (id : ObjectId) :
    (plan.restoreChild id).1.Returned id := by
  rw [restoreChild]
  split
  · next entry hfound hsub =>
    split
    · exact ⟨_, get?_reassign_self hfound, rfl, fun _ _ => rfl⟩
    · next hkeep =>
      -- An entry that is kept creates, or else there was nothing to drop or to alter.
      obtain ⟨-, rfl⟩ := get?_some hfound
      have hcreate : entry.treatment = .create := by
        by_contra hne
        exact hkeep (by simp [hne, (hplan _ entry hfound).old hne])
      exact ⟨entry, hfound, by rw [hcreate]; rfl, fun _ _ => hcreate⟩
  · next entry hfound hsub =>
    split
    · exact ⟨_, get?_reassign_self hfound, rfl, fun h => by rw [hsub] at h; cases h⟩
    · next halters =>
      exact ⟨entry, hfound, Bool.eq_false_iff.2 halters, fun h => by rw [hsub] at h; cases h⟩
  · next hfound hsub =>
    split <;> exact ⟨_, get?_derive_self hfound, rfl,
      fun h => by rw [hsub] at h; cases h⟩
  · next hfound hsub => exact ⟨_, get?_derive_self hfound, rfl, fun _ _ => rfl⟩

/-- A child that comes back still does later on. -/
theorem Advances.returned (h : plan.Advances next) (hreturned : plan.Returned id) :
    next.Returned id := by
  obtain ⟨entry, hentry, halters, hcreate⟩ := hreturned
  obtain ⟨later, hlater, -, rfl | ⟨halters', -⟩ | ⟨⟨created, hcreated, htreatment⟩, -⟩⟩ :=
    h.entry hentry
  · exact ⟨later, hlater, halters, by rwa [h.old]⟩
  · rw [halters] at halters'; cases halters'
  · exact ⟨created, hcreated, by rw [htreatment]; rfl, fun _ _ => htreatment⟩

/-- What is touched still is later on. -/
theorem Advances.contains (h : plan.Advances next) (hid : plan.contains id = true) :
    next.contains id = true := by
  obtain ⟨entry, hentry⟩ := contains_iff.1 hid
  obtain ⟨later, hlater, -⟩ := h.entry hentry
  exact contains_iff.2 ⟨later, hlater⟩

end Plan

end SchemaMigration
