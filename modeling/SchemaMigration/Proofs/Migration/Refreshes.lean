import SchemaMigration.Proofs.Ddl.MsSql
import SchemaMigration.Proofs.Migration.Dependents
import SchemaMigration.Proofs.Migration.Realisation
import SchemaMigration.Proofs.Plan.Alteration

/-!
# What depends on what is altered

When an object is altered in a way that its dependents notice, or is itself refreshed in place, what
depends on it goes away or is checked anew (`Migration.GoesAway`, `Migration.CheckedAnew`).
Expansion follows such changes from dependent to dependent, and drops what cannot be refreshed in
place. It takes an object that can be refreshed for done if it is altered already, and that
alteration only checks the object anew if it states the definition again. So a dependent that is
altered for the sake of its owner or its comment alone is not refreshed (`Migration.Overlooked`),
and that is the only exception (`Migration.refreshed_iff`).
-/

namespace SchemaMigration

/-- Only MS SQL refreshes objects in place. -/
theorem Dialect.refresh?_eq_some {dialect : Dialect} {s : Statement} {sql : String} :
    dialect.refresh? s = some sql ↔ dialect = .msSql ∧ Ddl.MsSql.refresh? s = some sql := by
  cases dialect <;> simp [refresh?]

/-- An object is refreshed in place by the statement that the dialect has for its new form. -/
theorem Plan.inPlace?_eq_some {plan : Plan} {id : ObjectId} {sql : String} :
    plan.inPlace? .inPlace id = some sql ↔
      ∃ t, plan.new.get? id = some t ∧ plan.new.dialect.refresh? t = some sql := by
  rw [inPlace?, if_pos rfl, Option.bind_eq_some_iff]

/-- An object is altered, and there is a statement that refreshes it in place. -/
def Plan.Refreshable (plan : Plan) (id : ObjectId) : Prop :=
  (∃ entry, plan.get? id = some entry ∧ entry.treatment.alters = true) ∧
    ∃ sql, plan.inPlace? .inPlace id = some sql

namespace Migration

/-- An object goes away, for good or to come back: it is dropped, or it is a sub-element of a table
or view that is. -/
def GoesAway (m : Migration) (id : ObjectId) : Prop :=
  (∃ entry ∈ m.entries, entry.id = id ∧ entry.treatment.drops = true) ∨
    id.kind.isSubElement = true ∧ ∃ owner, m.old.parent? id = some owner ∧
      ∃ entry ∈ m.entries, entry.id = owner ∧ entry.treatment.drops = true

/-- An object is checked anew by an alteration: its definition has changed and is stated again, or
the object is refreshed in place. -/
def CheckedAnew (m : Migration) (id : ObjectId) : Prop :=
  ∃ s t, m.old.get? id = some s ∧ m.new.get? id = some t ∧
    ∃ action ∈ m.actions, action.key = ⟨.alter, id⟩ ∧
      ((s.definition ≠ t.definition ∧
        ∃ text, Ddl.MsSql.module? t = some text ∧ "ALTER" ++ text ∈ action.statements) ∨
      ∃ sql, m.new.dialect.refresh? t = some sql ∧ sql ∈ action.statements)

/-- The alteration of an object was selected although its definition is the same as before. -/
def KeepsDefinition (m : Migration) (id : ObjectId) : Prop :=
  (∃ entry ∈ m.entries, entry.id = id ∧ entry.origin = .selected ∧
    entry.treatment.alters = true) ∧
  ∃ s t, m.old.get? id = some s ∧ m.new.get? id = some t ∧ s.definition = t.definition

/-- An object stays, and is altered for the sake of its owner or its comment alone. -/
def Overlooked (m : Migration) (id : ObjectId) : Prop := ¬ m.GoesAway id ∧ m.KeepsDefinition id

/-- Whether an object goes away can be computed. -/
instance (m : Migration) (id : ObjectId) : Decidable (m.GoesAway id) :=
  decidable_of_iff ((∃ entry ∈ m.entries, entry.id = id ∧ entry.treatment.drops = true) ∨
    id.kind.isSubElement = true ∧ ∃ owner ∈ m.old.parent? id,
      ∃ entry ∈ m.entries, entry.id = owner ∧ entry.treatment.drops = true) Iff.rfl

/-- Whether an object is checked anew can be computed. -/
instance (m : Migration) (id : ObjectId) : Decidable (m.CheckedAnew id) :=
  decidable_of_iff (∃ s ∈ m.old.get? id, ∃ t ∈ m.new.get? id,
    ∃ action ∈ m.actions, action.key = ⟨.alter, id⟩ ∧
      ((s.definition ≠ t.definition ∧
        ∃ text ∈ Ddl.MsSql.module? t, "ALTER" ++ text ∈ action.statements) ∨
      ∃ sql ∈ m.new.dialect.refresh? t, sql ∈ action.statements))
    (by simp only [CheckedAnew, Option.mem_def, exists_and_left])

/-- Whether an object keeps its definition can be computed. -/
instance (m : Migration) (id : ObjectId) : Decidable (m.KeepsDefinition id) :=
  decidable_of_iff ((∃ entry ∈ m.entries, entry.id = id ∧ entry.origin = .selected ∧
      entry.treatment.alters = true) ∧
    ∃ s ∈ m.old.get? id, ∃ t ∈ m.new.get? id, s.definition = t.definition)
    (by simp only [KeepsDefinition, Option.mem_def, exists_and_left])

/-- Whether an object is overlooked can be computed. -/
instance (m : Migration) (id : ObjectId) : Decidable (m.Overlooked id) :=
  inferInstanceAs (Decidable (_ ∧ _))

section
variable {m : Migration} {old new : Snapshot} {elements : List Element} {extra : ExtraDependencies}
  {plan : Plan} {st : Staging} {planned : List Step} {id : ObjectId} {entry : PlanEntry}
  (h : m.Derives old new elements extra plan st planned) (hold : old.WellFormed)
  (hnew : new.WellFormed) (htables : old.TablesApart)
  (helements : ∀ element ∈ elements, element.Agrees old new)
include h

/-- What an entry drops goes away. -/
theorem Derives.goesAway_of_drops (hentry : st.plan.get? id = some entry)
    (hdrops : entry.treatment.drops = true) : m.GoesAway id :=
  .inl ⟨entry, h.runs.entries ▸ (Plan.get?_some hentry).1, (Plan.get?_some hentry).2, hdrops⟩

/-- A sub-element whose old owner is dropped goes away. -/
theorem Derives.goesAway_of_owner_drops {owner : ObjectId} (hsub : id.kind.isSubElement = true)
    (hp : old.parent? id = some owner) (hentry : st.plan.get? owner = some entry)
    (hdrops : entry.treatment.drops = true) : m.GoesAway id :=
  .inr ⟨hsub, owner, h.migrationOld.symm ▸ hp, entry, h.runs.entries ▸ (Plan.get?_some hentry).1,
    (Plan.get?_some hentry).2, hdrops⟩

/-- What was refreshed in place was there before. -/
theorem Derives.contains_of_refreshedInPlace (hentry : st.plan.get? id = some entry)
    (horigin : entry.origin = .refreshedInPlace) : old.contains id = true := by
  rw [← h.initialOld]
  rcases h.edited.entry_cases h.initial.new h.initial.grounded hentry with
    hfound | ⟨-, -, hthere⟩ | ⟨-, -, hthere, -⟩
  · rw [h.initial.selected entry (Plan.get?_some hfound).1] at horigin
    cases horigin
  · exact hthere horigin
  · exact hthere

/-- A selected alteration is the one that the dialect decides on. -/
theorem Derives.alteration_of_selected (hentry : st.plan.get? id = some entry)
    (halters : entry.treatment.alters = true) (horigin : entry.origin ≠ .refreshedInPlace)
    {s t : Statement} (hs : old.get? id = some s) (ht : new.get? id = some t) :
    ∃ alteration, s.definition.kind = t.definition.kind ∧
      new.dialect.alter s t = .ok alteration ∧
      Decision.ofAlteration alteration = ⟨entry.treatment, entry.statements⟩ := by
  rcases h.edited.entry_cases h.initial.new h.initial.grounded hentry with
    hfound | ⟨hnone, -⟩ | ⟨-, hrefreshed, -⟩
  · obtain ⟨before, after, alteration, hbefore, hafter, hkind, halter, hdecision⟩ :=
      Plan.decided_of_ofElements h.selected id entry hfound halters
    rw [h.initialOld, hs] at hbefore
    rw [h.initialNew, ht] at hafter
    obtain rfl := Option.some.inj hbefore
    obtain rfl := Option.some.inj hafter
    exact ⟨alteration, hkind, h.initialNew ▸ halter, hdecision⟩
  · rw [hnone] at halters
    cases halters
  · exact absurd hrefreshed horigin

include hold hnew htables helements

/-- What depends on a changed object goes away, or is altered and can be refreshed. -/
theorem Derives.goesAway_or_refreshable {changed : PlanEntry} {trigger : Trigger}
    (hchanged : st.plan.get? changed.id = some changed) (htrigger : changed.trigger? = some trigger)
    (hid : old.contains id = true) (hdependent : id ∈ st.plan.dependents extra.old changed.id) :
    m.GoesAway id ∨ st.plan.Refreshable id := by
  have hthere : st.plan.old.contains id = true := h.planOld.symm ▸ hid
  rcases h.complete.settled hchanged htrigger id hdependent with
    hdropped | hgone | ⟨entry, hentry, hrefreshed⟩
  · rw [Plan.droppedWithTable_iff (h.planOld.symm ▸ hold) hthere, h.planOld] at hdropped
    obtain ⟨hsub, owner, hp, found, hfound, hdrops⟩ := hdropped
    exact .inl (h.goesAway_of_owner_drops hsub hp hfound hdrops)
  · rw [hthere] at hgone
    cases hgone
  · cases htreatment : entry.treatment with
    | drop | recreate => exact .inl (h.goesAway_of_drops hentry (by rw [htreatment]; rfl))
    | alter | alterWithDependents =>
      have halters : entry.treatment.alters = true := by rw [htreatment]; rfl
      refine .inr ⟨⟨entry, hentry, halters⟩, Option.isSome_iff_exists.1 ?_⟩
      -- Nothing can be refreshed on account of a removal.
      cases trigger with
      | inPlace => exact hrefreshed halters
      | removal => cases hrefreshed halters
    | nothing => exact absurd htreatment (h.grounded id entry hentry).touched
    | create =>
      -- Only what comes back with its owner is created although it was there.
      rcases h.created_of_agrees helements hentry htreatment with hfresh | ⟨hsub, howner⟩
      · rw [hid] at hfresh
        cases hfresh
      · obtain ⟨owner, hp, found, hfound, hrecreate⟩ :=
          h.oldOwner_of_recreated hold hnew htables hid hsub howner
        exact .inl (h.goesAway_of_owner_drops hsub hp hfound (by rw [hrecreate]; rfl))

/-- What depends on something under a recreated table or view goes away, or is altered and can be
refreshed. -/
theorem Derives.goesAway_or_refreshable_of_owner {need owner : ObjectId}
    (hsub : need.kind.isSubElement = true) (hp : old.parent? need = some owner)
    (howner : st.plan.Recreates owner) (hid : old.contains id = true)
    (hdependent : id ∈ st.plan.dependents extra.old need) :
    m.GoesAway id ∨ st.plan.Refreshable id := by
  have hwf : st.plan.old.WellFormed := h.planOld.symm ▸ hold
  obtain ⟨found, hfound, hrecreate⟩ := howner
  have hdrops : found.treatment.drops = true := by rw [hrecreate]; rfl
  by_cases heq : id = owner
  · exact .inl (h.goesAway_of_drops (heq ▸ hfound) hdrops)
  by_cases howned : old.Owns owner id
  · have hdepth : owner.kind.depth = 2 := by
      rcases hold.table_or_view_of_parent? hsub hp with hkind | hkind <;> rw [hkind] <;> rfl
    obtain ⟨hidSub, hidParent⟩ := hold.parent?_of_owns hdepth howned
    exact .inl (h.goesAway_of_owner_drops hidSub hidParent hfound hdrops)
  · obtain ⟨⟨other, hother, hneeds⟩, -, -⟩ := (Plan.mem_dependents hwf).1 hdependent
    obtain ⟨-, rfl⟩ := Plan.get?_some hfound
    refine h.goesAway_or_refreshable hold hnew htables helements hfound
      (PlanEntry.trigger?_of_drops hdrops) hid ((Plan.mem_dependents hwf).2
        ⟨⟨other, .inr ?_, hneeds⟩, heq, by rwa [h.planOld]⟩)
    rw [h.planOld] at hother ⊢
    exact hother.elim (fun heq => heq ▸ .single hp) fun howns => .head hp howns

/-- What depends on an object that is altered with its dependents or refreshed in place goes away,
or is altered and can be refreshed. -/
theorem Derives.goesAway_or_refreshable_of_cause {changed : PlanEntry}
    (hchanged : st.plan.get? changed.id = some changed)
    (hcause : changed.treatment = .alterWithDependents ∨ changed.origin = .refreshedInPlace)
    (hid : old.contains id = true) (hdependent : id ∈ st.plan.dependents extra.old changed.id) :
    m.GoesAway id ∨ st.plan.Refreshable id := by
  have hreached : ∀ {trigger}, changed.trigger? = some trigger →
      m.GoesAway id ∨ st.plan.Refreshable id := fun htrigger =>
    h.goesAway_or_refreshable hold hnew htables helements hchanged htrigger hid hdependent
  cases htreatment : changed.treatment with
  | drop | recreate => exact hreached (PlanEntry.trigger?_of_drops (by rw [htreatment]; rfl))
  | alterWithDependents =>
    have htrigger : changed.trigger? = some .inPlace := by rw [PlanEntry.trigger?, htreatment]; rfl
    exact hreached htrigger
  | alter =>
    have horigin := hcause.resolve_left (by simp [htreatment])
    have htrigger : changed.trigger? = some .inPlace := by
      simp [PlanEntry.trigger?, htreatment, horigin, Treatment.trigger?]
    exact hreached htrigger
  | nothing => exact absurd htreatment (h.grounded _ changed hchanged).touched
  | create =>
    -- What was refreshed in place is created with its owner, which it had before.
    have horigin := hcause.resolve_left (by simp [htreatment])
    have hthere := h.contains_of_refreshedInPlace hchanged horigin
    rcases h.created_of_agrees helements hchanged htreatment with hfresh | ⟨hsub, howner⟩
    · rw [hthere] at hfresh
      cases hfresh
    · obtain ⟨owner, hp, hrecreates⟩ := h.oldOwner_of_recreated hold hnew htables hthere hsub howner
      exact h.goesAway_or_refreshable_of_owner hold hnew htables helements hsub hp hrecreates hid
        hdependent

end

section
variable {m : Migration} {old new : Snapshot} {elements : List Element} {extra : ExtraDependencies}
  {plan : Plan} {st : Staging} {planned : List Step} {id : ObjectId} {entry : PlanEntry}
  (h : m.Derives old new elements extra plan st planned) (hold : old.WellFormed)
  (hnew : new.WellFormed)
include h hold hnew

/-- What is altered has an action of its own for that, columns and constraints aside. -/
theorem Derives.exists_alteration (hentry : entry ∈ m.entries)
    (halters : entry.treatment.alters = true) (hcolumn : entry.id.kind ≠ .column)
    (hconstraint : entry.id.kind ≠ .constraint) :
    ∃ action ∈ m.actions, action.key = ⟨.alter, entry.id⟩ ∧
      action.statements = entry.statements := by
  have hrealises := h.realises hold hnew hentry
  have hcount := hrealises.count .alter halters
  rw [if_neg fun hgoes => hgoes.1.elim hcolumn fun hinline => hconstraint hinline.1] at hcount
  obtain ⟨action, haction, hkey⟩ := List.mem_map.1 (List.count_pos_iff.1 (by omega :
    0 < m.keys.count ⟨.alter, entry.id⟩))
  exact ⟨action, haction, hkey, hrealises.statements action haction hkey⟩

omit hold hnew in
/-- A selected alteration of a module is the one that MS SQL decides on. -/
theorem Derives.alteration_of_module (htyped : new.Typed) (hentry : st.plan.get? id = some entry)
    (halters : entry.treatment.alters = true) (horigin : entry.origin = .selected)
    {s t : Statement} {sql : String} (hs : old.get? id = some s) (ht : new.get? id = some t)
    (hrefresh : new.dialect.refresh? t = some sql) :
    (∃ text, Ddl.MsSql.module? t = some text) ∧ s.definition.kind = t.definition.kind ∧
      ∃ alteration, Ddl.MsSql.alter s t = .ok alteration ∧
        Decision.ofAlteration alteration = ⟨entry.treatment, entry.statements⟩ := by
  obtain ⟨hdialect, hmodule⟩ := Dialect.refresh?_eq_some.1 hrefresh
  have hkind : t.definition.kind = t.kind :=
    (htyped.kind_eq ht).trans (congrArg ObjectId.kind (Snapshot.get?_some ht).2.symm)
  obtain ⟨alteration, hsame, halter, hdecision⟩ := h.alteration_of_selected hentry halters
    (by simp [horigin]) hs ht
  rw [hdialect] at halter
  exact ⟨Ddl.MsSql.exists_module?_of_refresh? hkind hmodule, hsame, alteration, halter, hdecision⟩

/-- What is altered and can be refreshed is checked anew, unless it keeps its definition. -/
theorem Derives.checkedAnew_of_refreshable (htyped : new.Typed) (hid : old.contains id = true)
    (hrefreshable : st.plan.Refreshable id) (hnot : ¬ m.KeepsDefinition id) :
    m.CheckedAnew id := by
  obtain ⟨⟨entry, hentry, halters⟩, sql, hsql⟩ := hrefreshable
  obtain ⟨s, hs⟩ := Snapshot.contains_iff.1 hid
  obtain ⟨t, ht, hrefresh⟩ := Plan.inPlace?_eq_some.1 hsql
  rw [h.planNew] at ht hrefresh
  obtain ⟨hmem, rfl⟩ := Plan.get?_some hentry
  have hkind := Ddl.MsSql.kind_of_refresh? (Dialect.refresh?_eq_some.1 hrefresh).2
  rw [Statement.kind, (Snapshot.get?_some ht).2] at hkind
  obtain ⟨action, haction, hkey, hstatements⟩ := h.exists_alteration hold hnew
    (h.runs.entries ▸ hmem) halters (by rcases hkind with h | h | h | h <;> simp [h])
    (by rcases hkind with h | h | h | h <;> simp [h])
  refine ⟨s, t, by rwa [h.migrationOld], by rwa [h.migrationNew], action, haction, hkey, ?_⟩
  rw [hstatements]
  rcases h.edited.entry_cases h.initial.new h.initial.grounded hentry with
    hfound | ⟨hnone, -⟩ | ⟨-, -, -, statement, hstatement, hlist⟩
  · have horigin := h.initial.selected entry (Plan.get?_some hfound).1
    have hne : s.definition ≠ t.definition := fun heq => hnot
      ⟨⟨entry, h.runs.entries ▸ hmem, rfl, horigin, halters⟩, s, t, by rwa [h.migrationOld],
        by rwa [h.migrationNew], heq⟩
    obtain ⟨⟨text, htext⟩, hsame, alteration, halter, hdecision⟩ :=
      h.alteration_of_module htyped hentry halters horigin hs ht hrefresh
    have hrestated := Ddl.MsSql.restates_of_alter halter htext hsame hne
      (by rw [hdecision]; exact halters)
    rw [hdecision] at hrestated
    exact .inl ⟨hne, text, htext, hrestated⟩
  · rw [hnone] at halters
    cases halters
  · rw [h.edited.advances h.initial.new |>.inPlace?, hstatement] at hsql
    obtain rfl := Option.some.inj hsql
    exact .inr ⟨statement, by rwa [h.migrationNew], by simp [hlist]⟩

/-- What keeps its definition is not checked anew. -/
theorem Derives.not_checkedAnew (htyped : new.Typed) (hkeeps : m.KeepsDefinition id) :
    ¬ m.CheckedAnew id := by
  obtain ⟨⟨entry, hmem, rfl, horigin, halters⟩, s, t, hs, ht, heq⟩ := hkeeps
  rintro ⟨s', t', hs', ht', action, haction, hkey, hcases⟩
  obtain rfl := Option.some.inj (hs.symm.trans hs')
  obtain rfl := Option.some.inj (ht.symm.trans ht')
  rcases hcases with ⟨hne, -⟩ | ⟨sql, hrefresh, hsql⟩
  · exact hne heq
  rw [h.migrationOld] at hs
  rw [h.migrationNew] at ht hrefresh
  obtain ⟨⟨text, htext⟩, -, alteration, halter, hdecision⟩ :=
    h.alteration_of_module htyped (h.mem_entries.1 hmem) halters horigin hs ht hrefresh
  rw [(h.realises hold hnew hmem).statements action haction hkey] at hsql
  refine Ddl.MsSql.not_isRefresh_of_alter halter htext heq (by rw [hdecision]; exact hsql) ?_
  exact Ddl.MsSql.isRefresh_of_refresh? (Dialect.refresh?_eq_some.1 hrefresh).2

end

/-- **Dependents are refreshed but for those that are overlooked.** If an object is altered in a way
that its dependents notice, or was refreshed in place, then every object of the old snapshot that
needs it, or something that it owns, from outside, goes away or is checked anew, exactly if it is
not overlooked: it would have to stay and be altered for the sake of its owner or its comment
alone. -/
theorem refreshed_iff {m : Migration} {old new : Snapshot} {elements : List Element}
    {extra : ExtraDependencies} (hold : old.WellFormed) (hnew : new.WellFormed)
    (htyped : new.Typed) (htables : old.TablesApart)
    (helements : ∀ element ∈ elements, element.Agrees old new)
    (hm : ofElements old new elements extra = .ok m) {entry : PlanEntry}
    (hentry : entry ∈ m.entries)
    (hcause : entry.treatment = .alterWithDependents ∨ entry.origin = .refreshedInPlace)
    {dependent need : ObjectId} (hneeds : old.Needs extra.old dependent need)
    (hneed : need = entry.id ∨ old.Owns entry.id need) (hne : dependent ≠ entry.id)
    (hforeign : ¬ old.Owns entry.id dependent) :
    m.GoesAway dependent ∨ m.CheckedAnew dependent ↔ ¬ m.Overlooked dependent := by
  obtain ⟨plan, st, planned, h⟩ := exists_derives hold hnew hm
  have hid := h.contains_of_needs hneeds
  have hdependent : dependent ∈ st.plan.dependents extra.old entry.id := by
    rw [Plan.mem_dependents (h.planOld.symm ▸ hold), h.planOld]
    exact ⟨⟨need, hneed, hneeds⟩, hne, hforeign⟩
  constructor
  · rintro hrefreshed ⟨hstays, hkeeps⟩
    exact hrefreshed.elim hstays (h.not_checkedAnew hold hnew htyped hkeeps)
  · intro hnot
    by_cases hgoes : m.GoesAway dependent
    · exact .inl hgoes
    · have hrefreshable := (h.goesAway_or_refreshable_of_cause hold hnew htables helements
        (h.mem_entries.1 hentry) hcause hid hdependent).resolve_left hgoes
      exact .inr (h.checkedAnew_of_refreshable hold hnew htyped hid hrefreshable fun hkeeps =>
        hnot ⟨hgoes, hkeeps⟩)

/-! ### A view of a column that changes its type -/

namespace ViewOfColumn

/-- The schema. -/
def schema : ObjectId := ⟨.schema, ["dbo"]⟩

/-- The table. -/
def table : ObjectId := .table "dbo" "t"

/-- The column of the table. -/
def column : ObjectId := table.child .column "a"

/-- The view. -/
def view : ObjectId := ⟨.view, ["dbo", "v"]⟩

/-- The schema with the table and the view, by the type of the column and the comment on the
view. -/
def snapshot (dataType : String) (comment : Option String) : Snapshot where
  dialect := .msSql
  statements :=
    [{ id := .database, parent := none, definition := .database, children := [schema] },
     { id := schema, parent := some .database, definition := .schema {},
       children := [table, view] },
     { id := table, parent := some schema, definition := .table {}, children := [column] },
     { id := column, parent := some table, definition := .column { dataType } },
     { id := view, parent := some schema, comment, dependencies := [table, column]
       definition := .view { query := "SELECT a FROM dbo.t" } }]
  fingerprints := []

/-- The view needs the column. -/
theorem needs_column (dataType : String) (comment : Option String) :
    (snapshot dataType comment).Needs [] view column :=
  .inl ⟨_, rfl, List.mem_cons_of_mem _ List.mem_cons_self⟩

/-- Nothing is owned by the column. -/
theorem not_owns_view : ¬ (snapshot "int" none).Owns column view := by
  have hold : (snapshot "int" none).WellFormed := by decide +kernel
  rw [← hold.isDescendant_iff]
  decide +kernel

/-- If the view itself stays the same, it is refreshed. -/
theorem view_refreshed :
    ∃ m, ofElements (snapshot "int" none) (snapshot "bigint" none) [⟨column, .both⟩] {} = .ok m ∧
      m.CheckedAnew view := by
  obtain ⟨m, hm, htest⟩ := exists_ok_of_test (p := fun m : Migration =>
      decide ((∃ entry ∈ m.entries, entry.id = column ∧ entry.treatment = .alterWithDependents) ∧
        ¬ m.GoesAway view ∧ ¬ m.Overlooked view))
    (show (ofElements (snapshot "int" none) (snapshot "bigint" none)
      [⟨column, .both⟩] {}).toOption.any _ = true by decide +kernel)
  obtain ⟨⟨entry, hentry, hid, halters⟩, hstays, hnot⟩ := of_decide_eq_true htest
  refine ⟨m, hm, ((refreshed_iff (by decide +kernel) (by decide +kernel) (by decide +kernel)
    (by decide +kernel) (by decide +kernel) hm hentry (.inl halters) (needs_column "int" none)
    (.inl hid.symm) ?_ ?_).2 hnot).resolve_left hstays⟩
  · rw [hid]
    decide
  · rw [hid]
    exact not_owns_view

/-- If the comment on the view changes as well, the view is not refreshed. -/
theorem view_overlooked :
    ∃ m, ofElements (snapshot "int" none) (snapshot "bigint" (some "c"))
        [⟨column, .both⟩, ⟨view, .both⟩] {} = .ok m ∧
      (∃ entry ∈ m.entries, entry.id = column ∧ entry.treatment = .alterWithDependents) ∧
      (snapshot "int" none).Needs [] view column ∧ view ≠ column ∧
      ¬ (snapshot "int" none).Owns column view ∧ ¬ (m.GoesAway view ∨ m.CheckedAnew view) := by
  obtain ⟨m, hm, htest⟩ := exists_ok_of_test (p := fun m : Migration =>
      decide ((∃ entry ∈ m.entries, entry.id = column ∧ entry.treatment = .alterWithDependents) ∧
        ¬ (m.GoesAway view ∨ m.CheckedAnew view)))
    (show (ofElements (snapshot "int" none) (snapshot "bigint" (some "c"))
      [⟨column, .both⟩, ⟨view, .both⟩] {}).toOption.any _ = true by decide +kernel)
  obtain ⟨haltered, hnot⟩ := of_decide_eq_true htest
  exact ⟨m, hm, haltered, needs_column "int" none, by decide, not_owns_view, hnot⟩

end ViewOfColumn

end Migration

end SchemaMigration
