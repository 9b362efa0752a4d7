import SchemaMigration.Proofs.Migration.Effects

/-!
# What comes back with a recreated object

An object that is recreated brings back what stands below it. Expansion restores the children of
recreated objects only, level by level, so this holds as far as the owners in between were there
before and are recreated in turn (`Derives.recreates_of_owns`). Under an owner that is new nothing
is restored: what stands there comes with it if it is a column or a constraint, or if it was
selected itself, and is left out otherwise (`Migration.LeftOut`). That is the only exception
(`Migration.brought_iff_of_recreated`).
-/

namespace SchemaMigration

namespace Migration

/-- An object stands under an owner that is new, nothing creates it in its own right, and it does
not come with the owner either. -/
def LeftOut (m : Migration) (id : ObjectId) : Prop :=
  (∃ owner, m.new.parent? id = some owner ∧ m.old.contains owner = false ∧
    (id.kind = .column ∨ id.kind = .constraint → ⟨.create, owner⟩ ∉ m.keys)) ∧
  ∀ entry ∈ m.entries, entry.id = id → entry.treatment.creates = false

/-- Whether an object is left out can be computed. -/
instance (m : Migration) (id : ObjectId) : Decidable (m.LeftOut id) :=
  decidable_of_iff ((∃ owner ∈ m.new.parent? id, m.old.contains owner = false ∧
      (id.kind = .column ∨ id.kind = .constraint → ⟨.create, owner⟩ ∉ m.keys)) ∧
    ∀ entry ∈ m.entries, entry.id = id → entry.treatment.creates = false) Iff.rfl

/-- What is brought is created by its entry, or by or beside the table that it stands under. -/
theorem Runs.creates_or_table_of_brought {m : Migration} {st : Staging} {planned : List Step}
    (h : m.Runs st planned) (hnew : st.plan.new.WellFormed) {id : ObjectId}
    (hbrought : m.Brought id) :
    (∃ entry ∈ m.entries, entry.id = id ∧ entry.treatment.creates = true) ∨
      (id.kind = .column ∨ id.kind = .constraint) ∧
        ∃ owner, m.new.parent? id = some owner ∧ ⟨.create, owner⟩ ∈ m.keys := by
  obtain ⟨created, hkey, rfl | ⟨-, hp, hkind⟩⟩ := hbrought
  · rcases h.mem_keys.1 hkey with hplanned | hdetached
    · obtain ⟨entry, hentry, hid, hasks⟩ := (Staging.key_mem_planned h.steps).1 hplanned
      exact .inl ⟨entry, h.entries ▸ hentry, hid, (Staging.asks_iff.1 hasks).1⟩
    · obtain ⟨-, owner, hp, howner⟩ := Staging.exists_owner_of_detached hdetached hnew
      have hin := (Staging.key_mem_detachedSteps.1 hdetached).1
      rw [← ObjectId.mem_sortedSet, ← h.detached] at hin
      exact .inr ⟨.inr (h.constraints _ hin), owner, by rwa [h.new], h.mem_keys.2 (.inl howner)⟩
  · exact .inr ⟨hkind.imp_right And.left, created, hp, hkey⟩

section
variable {m : Migration} {old new : Snapshot} {elements : List Element} {extra : ExtraDependencies}
  {plan : Plan} {st : Staging} {planned : List Step} {id owner : ObjectId}
  (h : m.Derives old new elements extra plan st planned)
  (helements : ∀ element ∈ elements, element.Agrees old new)
include h helements

/-- A child of a recreated object, columns aside, is created, or dropped and created. -/
theorem Derives.creates_of_owner_recreated (hp : new.parent? id = some owner)
    (howner : st.plan.Recreates owner) (hkind : id.kind ≠ .column) :
    ∃ entry, st.plan.get? id = some entry ∧ entry.treatment.creates = true := by
  obtain ⟨entry, hentry, halters, -⟩ :=
    h.complete.returned howner (h.planNew.symm ▸ hp) hkind
  refine ⟨entry, hentry, ?_⟩
  cases htreatment : entry.treatment with
  | create | recreate => rfl
  | alter | alterWithDependents => rw [htreatment] at halters; cases halters
  | nothing => exact absurd htreatment (h.grounded _ entry hentry).touched
  | drop =>
    have hgone := h.gone_of_agrees helements hentry htreatment
    rw [Snapshot.contains_of_parent? hp] at hgone
    cases hgone

/-- A child of a recreated object is recreated if it was there before, sub-elements aside. -/
theorem Derives.recreates_of_owner_recreated (hp : new.parent? id = some owner)
    (howner : st.plan.Recreates owner) (hsub : id.kind.isSubElement = false)
    (hthere : old.contains id = true) : st.plan.Recreates id := by
  obtain ⟨entry, hentry, hcreates⟩ := h.creates_of_owner_recreated helements hp howner
    fun hcolumn => by rw [hcolumn] at hsub; cases hsub
  refine ⟨entry, hentry, ?_⟩
  cases htreatment : entry.treatment with
  | recreate => rfl
  | create =>
    -- What was there is only created again with its owner if it is a sub-element.
    rcases h.created_of_agrees helements hentry htreatment with hfresh | ⟨hsub', -⟩
    · rw [hthere] at hfresh
      cases hfresh
    · rw [hsub] at hsub'
      cases hsub'
  | drop | alter | alterWithDependents | nothing => rw [htreatment] at hcreates; cases hcreates

/-- What a recreated object owns is recreated if it was there before, sub-elements aside. -/
theorem Derives.recreates_of_owns (hold : old.WellFormed) (hnew : new.WellFormed)
    (howner : st.plan.Recreates owner) (howns : new.Owns owner id)
    (hsub : id.kind.isSubElement = false) (hthere : old.contains id = true) :
    st.plan.Recreates id := by
  induction howns with
  | single hp => exact h.recreates_of_owner_recreated helements hp howner hsub hthere
  | @tail middle id _ hp ih =>
    -- The owner in between was there as well, since the object has not moved.
    have hparent : old.parent? id = some middle :=
      (hold.parent?_eq hnew hsub hthere (Snapshot.contains_of_parent? hp)).trans hp
    have hmiddle := ih (hnew.not_isSubElement_of_parent? hp) (hold.owner_of_parent? hparent).1
    exact h.recreates_of_owner_recreated helements hp hmiddle hsub hthere

/-- What stands under a recreated object is brought. -/
theorem Derives.brought_of_owner_recreated (hnew : new.WellFormed)
    (hp : new.parent? id = some owner) (howner : st.plan.Recreates owner) : m.Brought id := by
  have hwf : st.plan.new.WellFormed := h.planNew.symm ▸ hnew
  by_cases hkind : id.kind = .column
  · obtain ⟨entry, hentry, hrecreate⟩ := howner
    refine h.runs.brought_of_table_created hwf (.inl hkind) (h.planNew.symm ▸ hp) ?_
    exact (h.runs.mem_keys_iff_of_not_isSubElement h.distinct
      (hnew.not_isSubElement_of_parent? hp)).2 ⟨entry, hentry, by rw [hrecreate]; rfl⟩
  · obtain ⟨entry, hentry, hcreates⟩ := h.creates_of_owner_recreated helements hp howner hkind
    exact h.runs.brought_of_creates hwf h.distinct h.grounded hentry hcreates

end

/-- **Recreated objects come back complete but for what is left out.** Whatever the new snapshot
holds below a recreated object is created by an action of its own, or is a column or a constraint of
a table that is created, exactly if it is not left out: it would have to stand under an owner that
is new, and neither come with that owner nor have an entry that creates it. -/
theorem brought_iff_of_recreated {m : Migration} {old new : Snapshot} {elements : List Element}
    {extra : ExtraDependencies} (hold : old.WellFormed) (hnew : new.WellFormed)
    (helements : ∀ element ∈ elements, element.Agrees old new)
    (hm : ofElements old new elements extra = .ok m) {entry : PlanEntry}
    (hentry : entry ∈ m.entries)
    (hrecreate : entry.treatment = .recreate) {id : ObjectId} (howns : new.Owns entry.id id) :
    m.Brought id ↔ ¬ m.LeftOut id := by
  obtain ⟨plan, st, planned, h⟩ := exists_derives hold hnew hm
  have hwf : st.plan.new.WellFormed := h.planNew.symm ▸ hnew
  have hrecreates : st.plan.Recreates entry.id := ⟨entry, h.mem_entries.1 hentry, hrecreate⟩
  constructor
  · rintro hbrought ⟨⟨owner, hp, -, hinline⟩, hnone⟩
    rcases h.runs.creates_or_table_of_brought hwf hbrought with
      ⟨found, hfound, hid, hcreates⟩ | ⟨hkind, table, htable, hkey⟩
    · rw [hnone found hfound hid] at hcreates
      cases hcreates
    · obtain rfl := Option.some.inj (hp.symm.trans htable)
      exact hinline hkind hkey
  · intro hnot
    obtain ⟨owner, hp, howner⟩ := Snapshot.exists_parent?_of_owns howns
    cases hthere : old.contains owner with
    | true =>
      have hownerRecreates : st.plan.Recreates owner := by
        rcases howner with rfl | howns
        · exact hrecreates
        · exact h.recreates_of_owns helements hold hnew hrecreates howns
            (hnew.not_isSubElement_of_parent? hp) hthere
      exact h.brought_of_owner_recreated helements hnew hp hownerRecreates
    | false =>
      simp only [LeftOut, not_and_or, not_exists, not_forall, h.migrationNew, h.migrationOld,
        Bool.not_eq_false, not_not] at hnot
      rcases hnot with hinline | ⟨found, hfound, rfl, hcreates⟩
      · obtain hne | hheld | ⟨hkind, hkey⟩ := hinline owner
        · exact absurd hp hne
        · rw [hthere] at hheld
          cases hheld
        · exact h.runs.brought_of_table_created hwf hkind (h.planNew.symm ▸ hp) hkey
      · exact h.runs.brought_of_creates hwf h.distinct h.grounded (h.mem_entries.1 hfound) hcreates

/-! ### A schema that gets a table and another engine -/

namespace NewTable

/-- The schema. -/
def schema : ObjectId := ⟨.schema, ["d"]⟩

/-- The table. -/
def table : ObjectId := .table "d" "t"

/-- The column of the table. -/
def column : ObjectId := table.child .column "a"

/-- The index of the table. -/
def index : ObjectId := table.child .index "i"

/-- The schema with its engine and some tables. -/
def snapshot (engine : String) (tables : List ObjectId) (definitions : List Statement) :
    Snapshot where
  dialect := .clickHouse
  statements :=
    [{ id := .database, parent := none, definition := .database, children := [schema] },
     { id := schema, parent := some .database, definition := .schema { engine := some engine },
       children := tables }] ++ definitions
  fingerprints := []

/-- The schema before, without the table. -/
def before : Snapshot := snapshot "Atomic" [] []

/-- The schema after, with the table and its index. -/
def after : Snapshot :=
  snapshot "Lazy" [table]
    [{ id := table, parent := some schema, children := [column, index]
       definition := .table { engine := some "MergeTree", orderBy := some "a" } },
     { id := column, parent := some table, definition := .column { dataType := "Int32" } },
     { id := index, parent := some table, dependencies := [column]
       definition := .index { columns := ["a"], method := some "minmax" } }]

/-- The schema owns what stands under its table. -/
theorem owns_of_table {id : ObjectId} (hp : after.parent? id = some table) :
    after.Owns schema id := .tail (.single (by decide +kernel)) hp

/-- If the schema alone is selected, its new table is created, with its column. -/
theorem column_comes_back :
    ∃ m, ofElements before after [⟨schema, .both⟩] {} = .ok m ∧
      (∃ entry ∈ m.entries, entry.id = schema ∧ entry.treatment = .recreate) ∧
      m.Brought column := by
  obtain ⟨m, hm, htest⟩ := exists_ok_of_test (p := fun m : Migration =>
      decide ((∃ entry ∈ m.entries, entry.id = schema ∧ entry.treatment = .recreate) ∧
        ¬ m.LeftOut column))
    (show (ofElements before after [⟨schema, .both⟩] {}).toOption.any _ = true by decide +kernel)
  obtain ⟨⟨entry, hentry, hid, hrecreate⟩, hnot⟩ := of_decide_eq_true htest
  exact ⟨m, hm, ⟨entry, hentry, hid, hrecreate⟩, (brought_iff_of_recreated (by decide +kernel)
    (by decide +kernel) (by decide +kernel) hm hentry hrecreate
    (hid ▸ owns_of_table (by decide +kernel))).2 hnot⟩

/-- The index of the new table is not created, although the recreated schema owns it. -/
theorem index_left_out :
    ∃ m, ofElements before after [⟨schema, .both⟩] {} = .ok m ∧
      (∃ entry ∈ m.entries, entry.treatment = .recreate ∧ after.Owns entry.id index) ∧
      ¬ m.Brought index := by
  obtain ⟨m, hm, htest⟩ := exists_ok_of_test (p := fun m : Migration =>
      decide ((∃ entry ∈ m.entries, entry.id = schema ∧ entry.treatment = .recreate) ∧
        ∀ key ∈ m.keys, key.kind = .create → ¬ m.Brings key.id index))
    (show (ofElements before after [⟨schema, .both⟩] {}).toOption.any _ = true by decide +kernel)
  obtain ⟨⟨entry, hentry, hid, hrecreate⟩, hnot⟩ := of_decide_eq_true htest
  refine ⟨m, hm, ⟨entry, hentry, hrecreate, hid ▸ owns_of_table (by decide +kernel)⟩, ?_⟩
  rintro ⟨created, hkey, hbrings⟩
  exact hnot _ hkey rfl hbrings

end NewTable

end Migration

end SchemaMigration
