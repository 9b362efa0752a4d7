import SchemaMigration.Proofs.Migration.Dependents

/-!
# Alterations that stay in place

An object that can be altered in place may still be recreated, which for a column means that its
data is lost. Expansion follows the dependencies of the old snapshot, also those that the new
definition has given up. So an alteration stays in place exactly if nothing that the old definition
needs goes away or changes in place without a way to refresh the object
(`Migration.kept_in_place_iff`). In particular an object that stops using what is dropped is always
recreated, and the order that is kept for such an object, which is altered before the drop, never
comes into play (`Migration.Derives.not_dropped_of_not_displaced`).
-/

namespace SchemaMigration

namespace Plan

variable {plan next : Plan} {extra : List DependencyPair} {id : ObjectId} {entry : PlanEntry}

/-- An entry stays as it is unless its object is forced to go or has its owner recreated. -/
theorem Edited.kept_or_forced (h : Edited extra plan next) (hnew : plan.new.WellFormed)
    (hentry : plan.get? id = some entry) :
    next.get? id = some entry ∨ next.Forces extra id ∨ next.OwnerRecreated id := by
  induction h with
  | refl => exact .inl hentry
  | @tail middle next change edited edit ih =>
    have hmiddle : middle.new.WellFormed := (edited.advances hnew).new.symm ▸ hnew
    have hadvances : middle.Advances next := edit.advances hmiddle
    have hcause : middle.Forces extra id ∨ middle.OwnerRecreated id →
        next.Forces extra id ∨ next.OwnerRecreated id :=
      Or.imp (hadvances.forces hmiddle) (hadvances.ownerRecreated hmiddle)
    rcases ih with hkept | hforced
    · cases edit with
      | keep => exact .inl hkept
      | @upgrade other _ found _ cause =>
        rw [get?_reassign]
        split
        · next heq => exact .inr (hcause (heq ▸ cause))
        · exact .inl hkept
      | @restore other _ found _ _ cause =>
        rw [get?_reassign]
        split
        · next heq => exact .inr (hcause (.inr (heq ▸ cause)))
        · exact .inl hkept
      | drop absent | recreate absent | create absent | refreshInPlace absent =>
        rw [get?_derive absent]
        split
        · next heq => rw [← heq, hkept] at absent; cases absent
        · exact .inl hkept
    · exact .inr (hcause hforced)

end Plan

namespace Migration

/-- A sub-element that was there is created again with its owner, which is recreated. -/
def Returns (m : Migration) (entry : PlanEntry) : Prop :=
  entry.treatment = .create ∧ entry.id.kind.isSubElement = true ∧
    m.old.contains entry.id = true ∧
    ∃ owner ∈ m.entries, m.new.parent? entry.id = some owner.id ∧ owner.treatment = .recreate

/-- An entry of a migration leaves an object no place: the object, which neither is its object nor
owned by it, needs it or something that it owns in the old snapshot; and it goes away, for good or
to come back, or it changes in place while the object cannot be refreshed. -/
def Displaces (m : Migration) (extra : List DependencyPair) (entry : PlanEntry) (id : ObjectId) :
    Prop :=
  ((∃ need, (need = entry.id ∨ m.old.Owns entry.id need) ∧ m.old.Needs extra id need) ∧
      id ≠ entry.id ∧ ¬ m.old.Owns entry.id id) ∧
    (entry.treatment.drops = true ∨ m.Returns entry ∨
      (entry.trigger? = some .inPlace ∧ (m.new.get? id).bind m.new.dialect.refresh? = none))

section
variable {m : Migration} {old new : Snapshot} {elements : List Element} {extra : ExtraDependencies}
  {plan : Plan} {st : Staging} {planned : List Step} {id : ObjectId} {entry : PlanEntry}
  (h : m.Derives old new elements extra plan st planned)
include h

/-- The entry of what is forced to go, as the migration has it. -/
theorem Derives.exists_displaces_of_forces (hold : old.WellFormed)
    (hforces : st.plan.Forces extra.old id) :
    ∃ entry ∈ m.entries, m.Displaces extra.old entry id := by
  obtain ⟨changed, trigger, hreaches, hid, hin⟩ := hforces
  have hwf : st.plan.old.WellFormed := h.planOld.symm ▸ hold
  have hdependent := (Plan.mem_dependents hwf).1 hid
  rw [h.planOld, ← h.migrationOld] at hdependent
  have hfind : ∀ {entry}, st.plan.get? changed = some entry →
      entry ∈ m.entries ∧ entry.id = changed := fun hentry =>
    ⟨h.runs.entries ▸ (Plan.get?_some hentry).1, (Plan.get?_some hentry).2⟩
  rcases hreaches with ⟨entry, hentry, hdrops | htrigger⟩ | ⟨⟨entry, hentry, hcreate⟩, hsub,
    hthere, owner, hparent, found, hfound, hrecreate⟩
  · obtain ⟨hmem, rfl⟩ := hfind hentry
    exact ⟨entry, hmem, hdependent, .inl hdrops⟩
  · obtain ⟨hmem, rfl⟩ := hfind hentry
    refine ⟨entry, hmem, hdependent, ?_⟩
    cases trigger with
    | removal =>
      left
      cases htreatment : entry.treatment <;>
        simp [PlanEntry.trigger?, htreatment, Treatment.trigger?] at htrigger <;> rfl
    | inPlace =>
      refine .inr (.inr ⟨htrigger, ?_⟩)
      rw [Plan.inPlace?, if_pos rfl, h.planNew, ← h.migrationNew] at hin
      exact hin
  · obtain ⟨hmem, rfl⟩ := hfind hentry
    obtain ⟨hownerMem, rfl⟩ := Plan.get?_some hfound
    refine ⟨entry, hmem, hdependent, .inr (.inl ⟨hcreate, hsub, ?_, found, ?_, ?_, hrecreate⟩)⟩
    · rw [h.migrationOld, ← h.planOld]
      exact hthere
    · exact h.runs.entries ▸ hownerMem
    · rw [h.migrationNew, ← h.planNew]
      exact hparent

/-- No owner that an object has on either side is dropped or recreated. -/
def OwnersStay (m : Migration) (id : ObjectId) : Prop :=
  ∀ owner ∈ m.entries, m.old.Owns owner.id id ∨ m.new.Owns owner.id id →
    owner.treatment.drops = false

/-- A dependent that is altered and whose owners stay can be refreshed in place. -/
theorem Derives.isSome_inPlace? (hold : old.WellFormed) (hid : old.contains id = true)
    (hentry : st.plan.get? id = some entry) (halters : entry.treatment.alters = true)
    (howners : m.OwnersStay id) {changed : PlanEntry} {trigger : Trigger}
    (hchanged : changed ∈ m.entries) (htrigger : changed.trigger? = some trigger)
    (hdependent : id ∈ st.plan.dependents extra.old changed.id) :
    (st.plan.inPlace? trigger id).isSome = true := by
  rcases h.complete.settled (h.mem_entries.1 hchanged) htrigger id hdependent with
    hdropped | hgone | ⟨other, hother, hrefreshed⟩
  · rw [Plan.droppedWithTable_iff (h.planOld.symm ▸ hold) (h.planOld.symm ▸ hid),
      h.planOld] at hdropped
    obtain ⟨-, owner, howner, table, htable, hdrops⟩ := hdropped
    obtain ⟨hmem, rfl⟩ := Plan.get?_some htable
    have hstays := howners table (h.runs.entries ▸ hmem) (.inl (h.migrationOld ▸ .single howner))
    rw [hstays] at hdrops
    cases hdrops
  · rw [h.planOld, hid] at hgone
    cases hgone
  · obtain rfl := Option.some.inj (hentry.symm.trans hother)
    exact hrefreshed halters

/-- What is altered although it could not stay does not exist. -/
theorem Derives.not_displaces (hold : old.WellFormed) (hnew : new.WellFormed)
    (htables : old.TablesApart) (hentry : st.plan.get? id = some entry)
    (halters : entry.treatment.alters = true) (howners : m.OwnersStay id) {changed : PlanEntry}
    (hchanged : changed ∈ m.entries) : ¬ m.Displaces extra.old changed id := by
  rintro ⟨⟨⟨need, hneed, hneeds⟩, hne, hforeign⟩, hcases⟩
  have hwf : st.plan.old.WellFormed := h.planOld.symm ▸ hold
  rw [h.migrationOld] at hneed hneeds hforeign
  have hid := h.contains_of_needs hneeds
  have hdependent : id ∈ st.plan.dependents extra.old changed.id := by
    rw [Plan.mem_dependents hwf, h.planOld]
    exact ⟨⟨need, hneed, hneeds⟩, hne, hforeign⟩
  have hremoval : ∀ {gone : PlanEntry}, gone ∈ m.entries → gone.treatment.drops = true →
      id ∈ st.plan.dependents extra.old gone.id → False := by
    intro gone hgone hdrops hin
    have := h.isSome_inPlace? hold hid hentry halters howners hgone
      (PlanEntry.trigger?_of_drops hdrops) hin
    rw [Plan.inPlace?, if_neg (by simp)] at this
    cases this
  rcases hcases with hdrops | ⟨-, hsub, hthere, again, hagain, hparent, hrecreate⟩ |
    ⟨htrigger, hnone⟩
  · exact hremoval hchanged hdrops hdependent
  · -- The owner that the object comes back with is the one that it had, and is dropped.
    rw [h.migrationOld] at hthere
    have hrecreated : st.plan.OwnerRecreated changed.id :=
      ⟨again.id, by rwa [h.planNew, ← h.migrationNew], again, h.mem_entries.1 hagain, hrecreate⟩
    obtain ⟨owner, hparent, found, howner, hrecreate⟩ :=
      h.oldOwner_of_recreated hold hnew htables hthere hsub hrecreated
    obtain ⟨hmem, rfl⟩ := Plan.get?_some howner
    have hdrops : found.treatment.drops = true := by rw [hrecreate]; rfl
    refine hremoval (h.runs.entries ▸ hmem) hdrops
      ((Plan.mem_dependents hwf).2 ⟨⟨need, ?_, ?_⟩, ?_, ?_⟩)
    · rw [h.planOld]
      rcases hneed with rfl | howns
      · exact .inr (.single hparent)
      · exact .inr (.head hparent howns)
    · rwa [h.planOld]
    · rintro rfl
      obtain rfl := Option.some.inj (hentry.symm.trans howner)
      rw [hrecreate] at halters
      cases halters
    · intro howns
      have := howners found (h.runs.entries ▸ hmem) (.inl (by rwa [h.migrationOld, ← h.planOld]))
      rw [this] at hdrops
      cases hdrops
  · have hsome := h.isSome_inPlace? hold hid hentry halters howners hchanged htrigger hdependent
    rw [Plan.inPlace?, if_pos rfl, h.planNew, ← h.migrationNew, hnone] at hsome
    cases hsome

/-- Neither an object nor anything that it needs is dropped if nothing leaves the object no
place. -/
theorem Derives.not_dropped_of_not_displaced (hold : old.WellFormed)
    (hentry : st.plan.get? id = some entry) (halters : entry.treatment.alters = true)
    (howners : m.OwnersStay id) (hstays : ∀ changed ∈ m.entries, ¬ m.Displaces extra.old changed id)
    {need : ObjectId} (hneeds : need = id ∨ old.Needs extra.old id need) :
    ⟨.drop, need⟩ ∉ m.keys := by
  intro hkey
  obtain ⟨gone, hgone, hdrops, hcases⟩ := h.runs.exists_entry_of_drop (h.planOld.symm ▸ hold) hkey
  rw [h.planOld] at hcases
  have hne : id ≠ gone.id := by
    rintro rfl
    obtain rfl := Option.some.inj (hentry.symm.trans (h.distinct.get?_of_mem hgone))
    cases htreatment : entry.treatment <;>
      simp [htreatment, Treatment.alters, Treatment.drops] at halters hdrops
  have hforeign : ¬ m.old.Owns gone.id id := fun howns => by
    rw [howners gone (h.runs.entries ▸ hgone) (.inl howns)] at hdrops
    cases hdrops
  refine hstays gone (h.runs.entries ▸ hgone) ⟨⟨⟨need, ?_, ?_⟩, hne, hforeign⟩, .inl hdrops⟩
  · rw [h.migrationOld]
    exact hcases.imp Eq.symm .single
  · rw [h.migrationOld]
    refine hneeds.resolve_left ?_
    rintro rfl
    rcases hcases with heq | hparent
    · exact hne heq.symm
    · exact hforeign (h.migrationOld ▸ .single hparent)

end

/-- **Alterations in place.** An object that is decided to be altered keeps that alteration, and is
altered before everything is dropped that its old definition needs and its new one does not, exactly
if no entry of the migration leaves it no place; the owners of the object are taken to stay. -/
theorem kept_in_place_iff {m : Migration} {old new : Snapshot} {elements : List Element}
    {extra : ExtraDependencies} {plan : Plan} {id : ObjectId} {entry : PlanEntry}
    (hold : old.WellFormed) (hnew : new.WellFormed) (htables : old.TablesApart)
    (hm : ofElements old new elements extra = .ok m)
    (hplan : Plan.ofElements old new elements = .ok plan) (hentry : plan.get? id = some entry)
    (halters : entry.treatment.alters = true) (howners : m.OwnersStay id) :
    (entry ∈ m.entries ∧ ⟨.drop, id⟩ ∉ m.keys ∧
      ∀ need, old.Needs extra.old id need → ¬ new.Needs extra.new id need →
        ⟨.drop, need⟩ ∈ m.keys → m.RunsBefore ⟨.alter, id⟩ ⟨.drop, need⟩) ↔
      ∀ changed ∈ m.entries, ¬ m.Displaces extra.old changed id := by
  obtain ⟨plan', st, planned, h⟩ := exists_derives hold hnew hm
  obtain rfl := Except.ok.inj (hplan.symm.trans h.selected)
  obtain ⟨-, rfl⟩ := Plan.get?_some hentry
  constructor
  · rintro ⟨hkept, -⟩ changed hchanged
    exact h.not_displaces hold hnew htables (h.mem_entries.1 hkept) halters howners hchanged
  · intro hstays
    have hkept : st.plan.get? entry.id = some entry := by
      rcases h.edited.kept_or_forced h.initial.new hentry with hkept | hforces | hrecreated
      · exact hkept
      · obtain ⟨changed, hchanged, hdisplaces⟩ := h.exists_displaces_of_forces hold hforces
        exact absurd hdisplaces (hstays changed hchanged)
      · obtain ⟨owner, hparent, found, hfound, hrecreate⟩ := hrecreated
        obtain ⟨hmem, rfl⟩ := Plan.get?_some hfound
        have := howners found (h.runs.entries ▸ hmem) (.inr ?_)
        · rw [hrecreate] at this
          cases this
        · rw [h.migrationNew, ← h.planNew]
          exact .single hparent
    have hnotDropped : ∀ {need}, need = entry.id ∨ old.Needs extra.old entry.id need →
        ⟨.drop, need⟩ ∉ m.keys :=
      h.not_dropped_of_not_displaced hold hkept halters howners hstays
    exact ⟨h.mem_entries.2 hkept, hnotDropped (.inl rfl), fun need hneeds _ hdrop =>
      absurd hdrop (hnotDropped (.inr hneeds))⟩

/-! ### A column that no longer takes its values from a sequence -/

namespace ReleasedSequence

/-- The schema. -/
def schema : ObjectId := ⟨.schema, ["a"]⟩

/-- The sequence. -/
def sequence : ObjectId := ⟨.sequence, ["a", "ids"]⟩

/-- The table. -/
def table : ObjectId := .table "a" "t"

/-- The column of the table. -/
def column : ObjectId := table.child .column "id"

/-- The schema with a table, whose column has a default and needs something for it, and with other
objects. -/
def snapshot (others : List ObjectId) (default : Option String) (needs : List ObjectId) :
    Snapshot where
  dialect := .postgres
  statements :=
    [{ id := .database, parent := none, definition := .database, children := [schema] },
     { id := schema, parent := some .database, definition := .schema {},
       children := others ++ [table] }] ++
    others.map (fun id => { id, parent := some schema, definition := .sequence {} }) ++
    [{ id := table, parent := some schema, definition := .table {}, children := [column] },
     { id := column, parent := some table, dependencies := needs
       definition := .column { dataType := "bigint", default } }]
  fingerprints := []

/-- The column has its values from the sequence. -/
def before : Snapshot := snapshot [sequence] (some "nextval('a.ids')") [sequence]

/-- The column has no default, and the sequence is still there. -/
def between : Snapshot := snapshot [sequence] none []

/-- The column has no default, and the sequence is gone. -/
def after : Snapshot := snapshot [] none []

/-- While the sequence stays, the default is dropped in place. -/
theorem default_dropped_in_place :
    ∃ m, ofElements before between [⟨column, .both⟩] {} = .ok m ∧
      (∃ entry ∈ m.entries, entry.id = column ∧ entry.treatment = .alter) ∧
      ⟨.drop, column⟩ ∉ m.keys := by
  obtain ⟨m, hm, htest⟩ := exists_ok_of_test (p := fun m : Migration =>
      decide (∀ entry ∈ m.entries, entry.id = column))
    (show (ofElements before between [⟨column, .both⟩] {}).toOption.any _ = true by decide +kernel)
  obtain ⟨plan, hplan, hselected⟩ := exists_ok_of_test (p := fun plan : Plan =>
      (plan.get? column).any fun entry => entry.treatment = .alter)
    (show (Plan.ofElements before between [⟨column, .both⟩]).toOption.any _ = true by
      decide +kernel)
  obtain ⟨entry, hentry, htreatment⟩ := (Option.any_eq_true _ _).1 hselected
  have halter : entry.treatment = .alter := of_decide_eq_true htreatment
  have honly : ∀ other ∈ m.entries, other.id = column := of_decide_eq_true htest
  have hold : before.WellFormed := by decide +kernel
  have hnew : between.WellFormed := by decide +kernel
  have howners : m.OwnersStay column := by
    obtain ⟨_, _, _, h⟩ := exists_derives hold hnew hm
    intro owner howner howns
    rw [honly owner howner, h.migrationOld, h.migrationNew] at howns
    exact (howns.elim hold.not_owns_self hnew.not_owns_self).elim
  obtain ⟨hkept, hnotDropped, -⟩ := (kept_in_place_iff hold hnew (by decide +kernel) hm hplan hentry
    (by rw [halter]; rfl) howners).2 fun changed hchanged hdisplaces =>
      hdisplaces.1.2.1 (honly changed hchanged).symm
  exact ⟨m, hm, ⟨entry, hkept, (Plan.get?_some hentry).2, halter⟩, hnotDropped⟩

/-- When the sequence goes, the column is dropped and created again, although its new definition
needs nothing and its owners stay. -/
theorem recreated_for_released_sequence :
    ∃ m plan entry, ofElements before after
        [⟨table, .both⟩, ⟨sequence, .onlyOld⟩, ⟨column, .both⟩] {} = .ok m ∧
      Plan.ofElements before after
        [⟨table, .both⟩, ⟨sequence, .onlyOld⟩, ⟨column, .both⟩] = .ok plan ∧
      plan.get? column = some entry ∧ entry.treatment = .alter ∧
      (∀ need, ¬ after.Needs [] column need) ∧
      (∀ other ∈ m.entries, other.id ≠ table ∧ other.id ≠ schema ∧ other.id ≠ .database) ∧
      entry ∉ m.entries ∧ ⟨.drop, column⟩ ∈ m.keys ∧ ⟨.alter, column⟩ ∉ m.keys := by
  obtain ⟨m, hm, htest⟩ := exists_ok_of_test (p := fun m : Migration =>
      decide ((∀ other ∈ m.entries, other.id ≠ table ∧ other.id ≠ schema ∧ other.id ≠ .database) ∧
        (∀ other ∈ m.entries, other.treatment ≠ .alter) ∧ ⟨.drop, column⟩ ∈ m.keys ∧
        ⟨.alter, column⟩ ∉ m.keys))
    (show (ofElements before after
      [⟨table, .both⟩, ⟨sequence, .onlyOld⟩, ⟨column, .both⟩] {}).toOption.any _ = true by
      decide +kernel)
  obtain ⟨howners, hnoAlter, hdrop, hnotAltered⟩ := of_decide_eq_true htest
  obtain ⟨plan, hplan, hselected⟩ := exists_ok_of_test (p := fun plan : Plan =>
      (plan.get? column).any fun entry => entry.treatment = .alter)
    (show (Plan.ofElements before after
      [⟨table, .both⟩, ⟨sequence, .onlyOld⟩, ⟨column, .both⟩]).toOption.any _ = true by
      decide +kernel)
  obtain ⟨entry, hentry, htreatment⟩ := (Option.any_eq_true _ _).1 hselected
  have halter : entry.treatment = .alter := of_decide_eq_true htreatment
  refine ⟨m, plan, entry, hm, hplan, hentry, halter, ?_, howners, fun hin =>
    hnoAlter entry hin halter, hdrop, hnotAltered⟩
  rintro need (⟨s, hs, hneed⟩ | hpair)
  · obtain rfl : s = _ := (Option.some.inj hs).symm
    exact List.not_mem_nil hneed
  · exact List.not_mem_nil hpair

end ReleasedSequence

end Migration

end SchemaMigration
