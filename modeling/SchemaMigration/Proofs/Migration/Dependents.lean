import SchemaMigration.Proofs.Migration.Actions
import SchemaMigration.Proofs.Snapshot.Sides

/-!
# Dependents of what goes away

When an object is dropped, for good or to be recreated, nothing that needs it, or anything it owns,
is left behind: the dependents are dropped as well, or they are sub-elements that go with the table
or view they stand under (`Migration.dependents_dropped`). A complete plan has dealt with all
dependents. That one of them was created instead of dropped can only be since it comes back with its
owner, and that owner is the one it had before.
-/

namespace SchemaMigration

namespace Migration

/-- The recreated owner of a sub-element of the old snapshot is the one that it has there. -/
theorem Derives.oldOwner_of_recreated {m : Migration} {old new : Snapshot}
    {elements : List Element} {extra : ExtraDependencies} {plan : Plan} {st : Staging}
    {planned : List Step} (h : m.Derives old new elements extra plan st planned)
    (hold : old.WellFormed) (hnew : new.WellFormed) (htables : old.TablesApart) {id : ObjectId}
    (hid : old.contains id = true) (hsub : id.kind.isSubElement = true)
    (howner : st.plan.OwnerRecreated id) :
    ∃ owner, old.parent? id = some owner ∧ st.plan.Recreates owner := by
  obtain ⟨owner, hparent, entry, hentry, hrecreate⟩ := howner
  have hgrounded := h.grounded owner entry hentry
  have howner : old.contains owner = true := by
    have := hgrounded.old (by simp [hrecreate])
    rwa [(Plan.get?_some hentry).2, h.planOld] at this
  rw [h.planNew] at hparent
  obtain ⟨previous, hprevious⟩ := hold.exists_parent? hid (by rintro rfl; cases hsub)
  have hpath : previous.path = owner.path := by
    rw [← hold.containerPath_of_parent? hprevious, hnew.containerPath_of_parent? hparent]
  have heq := htables.eq_of_path (hold.owner_of_parent? hprevious).1 howner
    (hold.table_or_view_of_parent? hsub hprevious) (hnew.table_or_view_of_parent? hsub hparent)
    hpath
  exact ⟨previous, hprevious, heq ▸ ⟨entry, hentry, hrecreate⟩⟩

/-- **Dependents go first.** If an object is dropped or recreated, then so is every object of the
old snapshot that needs it, or something that it owns, from outside; or else that object is a
sub-element of a table or view that is. -/
theorem dependents_dropped {m : Migration} {old new : Snapshot} {elements : List Element}
    {extra : ExtraDependencies} (hold : old.WellFormed) (hnew : new.WellFormed)
    (htables : old.TablesApart) (helements : ∀ element ∈ elements, element.Agrees old new)
    (hm : ofElements old new elements extra = .ok m) {entry : PlanEntry}
    (hentry : entry ∈ m.entries) (hdrops : entry.treatment.drops = true) {dependent need : ObjectId}
    (hneeds : old.Needs extra.old dependent need) (hneed : need = entry.id ∨ old.Owns entry.id need)
    (hne : dependent ≠ entry.id) (hforeign : ¬ old.Owns entry.id dependent) :
    (∃ other ∈ m.entries, other.id = dependent ∧ other.treatment.drops = true) ∨
      dependent.kind.isSubElement = true ∧ ∃ owner, old.parent? dependent = some owner ∧
        ∃ other ∈ m.entries, other.id = owner ∧ other.treatment.drops = true := by
  obtain ⟨plan, st, planned, h⟩ := exists_derives hold hnew hm
  have hdependent := h.contains_of_needs hneeds
  have hfind : ∀ {id found}, st.plan.get? id = some found → found.treatment.drops = true →
      ∃ other ∈ m.entries, other.id = id ∧ other.treatment.drops = true := by
    intro id found hfound hdrops
    obtain ⟨hmem, hid⟩ := Plan.get?_some hfound
    exact ⟨found, h.runs.entries ▸ hmem, hid, hdrops⟩
  have hin : dependent ∈ st.plan.dependents extra.old entry.id := by
    rw [Plan.mem_dependents (h.planOld.symm ▸ hold), h.planOld]
    exact ⟨⟨need, hneed, hneeds⟩, hne, hforeign⟩
  rcases h.complete.settled (h.mem_entries.1 hentry) (PlanEntry.trigger?_of_drops hdrops)
    dependent hin with hdropped | hgone | ⟨other, hother, halters⟩
  · -- The dependent goes with its table.
    simp only [Plan.droppedWithTable, Bool.and_eq_true, Plan.treats_iff, h.planOld] at hdropped
    obtain ⟨hsub, other, hother, hdrops⟩ := hdropped
    obtain ⟨owner, howner⟩ := hold.exists_parent? hdependent (by rintro rfl; cases hsub)
    rw [hold.topLevel_of_parent? hsub howner] at hother
    exact .inr ⟨hsub, owner, howner, hfind hother hdrops⟩
  · rw [h.planOld, hdependent] at hgone
    cases hgone
  · have hgrounded := h.grounded dependent other hother
    have hnotAltered : other.treatment.alters = false :=
      Bool.eq_false_iff.2 fun halters' => by cases halters halters'
    cases htreatment : other.treatment with
    | drop | recreate => exact .inl (hfind hother (by rw [htreatment]; rfl))
    | alter | alterWithDependents => rw [htreatment] at hnotAltered; cases hnotAltered
    | nothing => exact absurd htreatment hgrounded.touched
    | create =>
      -- Only what comes back with its owner is created although it was there.
      rcases h.created_of_agrees helements hother htreatment with hfresh | ⟨hsub, howner⟩
      · rw [hdependent] at hfresh
        cases hfresh
      · obtain ⟨owner, hparent, found, hfound, hrecreate⟩ :=
          h.oldOwner_of_recreated hold hnew htables hdependent hsub howner
        exact .inr ⟨hsub, owner, hparent, hfind hfound (by rw [hrecreate]; rfl)⟩

/-! ### A view of a table that is dropped -/

namespace ViewOfTable

/-- The table. -/
def table : ObjectId := .table "a" "t"

/-- The view. -/
def view : ObjectId := ⟨.view, ["a", "v"]⟩

/-- The schema with the view and some more objects, which the view needs. -/
def snapshot (others : List ObjectId) (definitions : List Statement) : Snapshot where
  dialect := .postgres
  statements :=
    [{ id := .database, parent := none, definition := .database, children := [⟨.schema, ["a"]⟩] },
     { id := ⟨.schema, ["a"]⟩, parent := some .database, definition := .schema {},
       children := others ++ [view] }] ++ definitions ++
    [{ id := view, parent := some ⟨.schema, ["a"]⟩, definition := .view { query := "SELECT 1" },
       dependencies := others }]
  fingerprints := []

/-- The schema before, with the table. -/
def before : Snapshot :=
  snapshot [table] [{ id := table, parent := some ⟨.schema, ["a"]⟩, definition := .table {} }]

/-- The schema after, without the table. -/
def after : Snapshot := snapshot [] []

/-- The view is dropped when the table is. -/
theorem view_dropped : ∃ m, ofElements before after [⟨table, .onlyOld⟩] {} = .ok m ∧
    ∃ entry ∈ m.entries, entry.id = view ∧ entry.treatment.drops = true := by
  obtain ⟨m, hm, htest⟩ := exists_ok_of_test (p := fun m : Migration =>
      decide (∃ entry ∈ m.entries, entry.id = table ∧ entry.treatment.drops = true))
    (show (ofElements before after [⟨table, .onlyOld⟩] {}).toOption.any _ = true by decide +kernel)
  obtain ⟨entry, hentry, hid, hdrops⟩ := of_decide_eq_true htest
  have hwf : before.WellFormed := by decide +kernel
  have hneeds : before.Needs [] view table := .inl ⟨_, rfl, by decide⟩
  refine ⟨m, hm, (dependents_dropped hwf (by decide +kernel) (by decide +kernel)
    (by decide +kernel) hm hentry hdrops hneeds
    (.inl hid.symm) ?_ ?_).resolve_right ?_⟩
  · rw [hid]
    decide
  · rw [hid, ← hwf.isDescendant_iff]
    decide +kernel
  · exact fun h => by cases h.1

end ViewOfTable

end Migration

end SchemaMigration
