import Mathlib.Data.Finset.Dedup
import Mathlib.Data.Finset.Filter
import Mathlib.Data.Finset.Insert
import Mathlib.Data.Finset.Lattice.Basic
import SchemaMigration.Proofs.Migration.Effects

/-!
# Running a migration

The actions of a migration are run on the set of objects that exist (`Migration.execute`): a drop
takes its object with the sub-elements under it, a creation brings its object with the columns and
the inline constraints of a table, and an alteration changes neither. An action is admitted only
where it makes sense: what is dropped or altered is there, a schema that is dropped is empty, and
what is created is not there yet, but its parent is, and no relation of its name. The migration of
two snapshots runs through and leads from the objects of the old one to exactly those of the new one
(`Migration.execute_actions`).

In between, an object exists if some action has brought it, or if it was there before and no action
has taken it (`Migration.Present`), since what takes an object always precedes what brings it.
-/

namespace SchemaMigration

namespace Snapshot

/-- The identities that a snapshot holds. -/
def ids (snapshot : Snapshot) : Finset ObjectId := (snapshot.statements.map (·.id)).toFinset

/-- The identities are those with a statement. -/
theorem mem_ids {snapshot : Snapshot} {id : ObjectId} :
    id ∈ snapshot.ids ↔ snapshot.contains id = true := by
  rw [ids, List.mem_toFinset, List.mem_map, contains_iff_exists_mem]

/-- No two tables, views or sequences have the same schema and name. -/
def RelationsApart (snapshot : Snapshot) : Prop :=
  ∀ s ∈ snapshot.statements, ∀ t ∈ snapshot.statements, s.id.relationKey?.isSome = true →
    s.id.relationKey? = t.id.relationKey? → s.id = t.id

/-- Whether relations are told apart by their names can be computed. -/
instance : DecidablePred RelationsApart := fun snapshot =>
  inferInstanceAs (Decidable (∀ s ∈ snapshot.statements, ∀ t ∈ snapshot.statements, _ → _))

/-- Relations of one schema and name are one. -/
theorem RelationsApart.eq {snapshot : Snapshot} (h : snapshot.RelationsApart) {a b : ObjectId}
    (ha : snapshot.contains a = true) (hb : snapshot.contains b = true)
    (hsome : a.relationKey?.isSome = true) (hkey : a.relationKey? = b.relationKey?) : a = b := by
  obtain ⟨s, hs, rfl⟩ := contains_iff_exists_mem.1 ha
  obtain ⟨t, ht, rfl⟩ := contains_iff_exists_mem.1 hb
  exact h s hs t ht hsome hkey

/-- Where relations are told apart by their names, so are tables and views. -/
theorem RelationsApart.tablesApart {snapshot : Snapshot} (h : snapshot.RelationsApart)
    (hwf : snapshot.WellFormed) : snapshot.TablesApart := by
  intro s hs hkind
  by_contra hview
  rw [Bool.not_eq_false] at hview
  have htable := contains_iff_exists_mem.2 ⟨s, hs, rfl⟩
  have heq := h.eq htable hview (hwf.relationKey?_isSome htable (by rw [hkind]; rfl))
    (by rw [ObjectId.relationKey?, ObjectId.relationKey?, hkind]; rfl)
  rw [heq] at hkind
  cases hkind

end Snapshot

namespace Migration

/-! ## Execution -/

/-- The objects that exist after an action. -/
def effect (m : Migration) (state : Finset ObjectId) : StepKey → Finset ObjectId
  | ⟨.drop, id⟩ => state.filter fun other => ¬ Takes id other
  | ⟨.create, id⟩ => state ∪ (insert id m.new.ids).filter (m.Brings id)
  | _ => state

/-- The objects that exist admit an action about a statement. -/
def Admits (state : Finset ObjectId) : StepKind → Statement → Prop
  | .drop, s =>
    s.id ∈ state ∧
      (s.kind = .schema → ∀ id ∈ state, id.schemaName? = s.id.schemaName? → id = s.id)
  | .alter, s => s.id ∈ state
  | .create, s =>
    s.id ∉ state ∧ (∀ parent ∈ s.parent, parent ∈ state) ∧
      (s.id.relationKey?.isSome = true → ∀ id ∈ state, id.relationKey? ≠ s.id.relationKey?)
  | .passThrough, _ => False

/-- Whether an action is admitted can be computed. -/
instance (state : Finset ObjectId) : ∀ kind s, Decidable (Admits state kind s)
  | .drop, _ => inferInstanceAs (Decidable (_ ∧ _))
  | .alter, _ => inferInstanceAs (Decidable (_ ∈ _))
  | .create, _ => inferInstanceAs (Decidable (_ ∧ _ ∧ _))
  | .passThrough, _ => inferInstanceAs (Decidable False)

/-- Runs actions one after the other, as long as they are admitted. -/
def execute (m : Migration) : List Action → Finset ObjectId → Option (Finset ObjectId)
  | [], state => some state
  | action :: rest, state =>
    if Admits state action.kind action.statement then execute m rest (m.effect state action.key)
    else none

/-- An object exists after some actions: one of them has brought it, or it was there before and none
has taken it. -/
def Present (m : Migration) (done : List StepKey) (id : ObjectId) : Prop :=
  (∃ created, ⟨.create, created⟩ ∈ done ∧ m.Brings created id) ∨
    m.old.contains id = true ∧ ∀ dropped, ⟨.drop, dropped⟩ ∈ done → ¬ Takes dropped id

namespace Bridges

variable {m : Migration} {st : Staging} {planned : List Step} {extra : List DependencyPair}
  {id : ObjectId} {done rest : List StepKey} {key : StepKey} (h : m.Bridges st planned extra)
include h

/-! ### What exists -/

/-- What exists in the end is what the new snapshot holds. -/
theorem present_keys_iff : m.Present m.keys id ↔ st.plan.new.contains id = true := by
  rw [Present, h.runs.old]
  constructor
  · rintro (⟨created, hkey, hbrings⟩ | ⟨hold, hkept⟩)
    · exact h.contains_of_brings hkey hbrings
    · by_contra hgone
      obtain ⟨dropped, hkey, htakes⟩ := h.taken_of_gone hold (Bool.eq_false_iff.2 hgone)
      exact hkept dropped hkey htakes
  · intro hnew
    by_cases hkept : st.plan.old.contains id = true ∧
        ∀ dropped, ⟨.drop, dropped⟩ ∈ m.keys → ¬ Takes dropped id
    · exact .inr hkept
    · refine .inl (h.brought hnew fun hold => ?_)
      by_contra hnot
      exact hkept ⟨hold, fun dropped hkey htakes => hnot ⟨dropped, hkey, htakes⟩⟩

section
variable (hkeys : m.keys = done ++ key :: rest)
include hkeys

/-- An action has not run before. -/
theorem not_mem_done : key ∉ done := by
  have hnodup := h.runs.nodup_keys h.distinct
  rw [hkeys] at hnodup
  exact fun hin => (List.nodup_append.1 hnodup).2.2 key hin key List.mem_cons_self rfl

omit h in
/-- An action that is run is one of the migration. -/
theorem mem_keys_of_split : key ∈ m.keys := by
  rw [hkeys]
  exact List.mem_append_right _ List.mem_cons_self

omit h in
/-- What precedes an action has run before. -/
theorem mem_done {earlier : StepKey} (hprecedes : m.Precedes earlier key) (hne : earlier ≠ key) :
    earlier ∈ done := by
  have hin := hprecedes (done ++ [key]) rest (by rw [hkeys]; simp)
    (List.mem_append_right _ (List.mem_singleton_self _))
  exact (List.mem_append.1 hin).resolve_right fun hin => hne (List.mem_singleton.1 hin)

/-- What an action precedes has not run before. -/
theorem not_mem_done_of_precedes {later : StepKey} (hprecedes : m.Precedes key later) :
    later ∉ done := fun hin =>
  h.not_mem_done hkeys (hprecedes done (key :: rest) hkeys hin)

end

/-- A drop makes away with what it takes. -/
theorem present_append_drop {dropped : ObjectId}
    (hkeys : m.keys = done ++ ⟨.drop, dropped⟩ :: rest) :
    m.Present (done ++ [⟨.drop, dropped⟩]) id ↔ m.Present done id ∧ ¬ Takes dropped id := by
  simp only [Present, List.mem_append, List.mem_singleton, StepKey.mk.injEq, reduceCtorEq,
    false_and, or_false, true_and]
  constructor
  · rintro (⟨created, hin, hbrings⟩ | ⟨hold, hkept⟩)
    · refine ⟨.inl ⟨created, hin, hbrings⟩, fun htakes => ?_⟩
      have hcreated : ⟨.create, created⟩ ∈ m.keys := hkeys ▸ List.mem_append_left _ hin
      exact h.not_mem_done_of_precedes hkeys
        (h.precedes (mem_keys_of_split hkeys) htakes hcreated hbrings) hin
    · exact ⟨.inr ⟨hold, fun other hin => hkept other (.inl hin)⟩, hkept dropped (.inr rfl)⟩
  · rintro ⟨hbrought | ⟨hold, hkept⟩, hnot⟩
    · exact .inl hbrought
    · refine .inr ⟨hold, fun other hin => ?_⟩
      rcases hin with hin | rfl
      · exact hkept other hin
      · exact hnot

omit h in
/-- A creation adds what it brings. -/
theorem present_append_create {created : ObjectId} :
    m.Present (done ++ [⟨.create, created⟩]) id ↔ m.Present done id ∨ m.Brings created id := by
  simp only [Present, List.mem_append, List.mem_singleton, StepKey.mk.injEq, reduceCtorEq,
    false_and, or_false, true_and]
  constructor
  · rintro (⟨other, hin | rfl, hbrings⟩ | hkept)
    · exact .inl (.inl ⟨other, hin, hbrings⟩)
    · exact .inr hbrings
    · exact .inl (.inr hkept)
  · rintro ((⟨other, hin, hbrings⟩ | hkept) | hbrings)
    · exact .inl ⟨other, .inl hin, hbrings⟩
    · exact .inr hkept
    · exact .inl ⟨created, .inr rfl, hbrings⟩

omit h in
/-- An alteration changes nothing. -/
theorem present_append_alter {altered : ObjectId} :
    m.Present (done ++ [⟨.alter, altered⟩]) id ↔ m.Present done id := by
  simp only [Present, List.mem_append, List.mem_singleton, StepKey.mk.injEq, reduceCtorEq,
    false_and, or_false]

/-! ### Drops -/

/-- What is dropped is there. -/
theorem present_of_drop (hkeys : m.keys = done ++ ⟨.drop, id⟩ :: rest) : m.Present done id := by
  have hkey := mem_keys_of_split hkeys
  refine .inr ⟨h.runs.old.symm ▸ h.contains_of_drop hkey, fun dropped hin htakes => ?_⟩
  have hdropped : ⟨.drop, dropped⟩ ∈ m.keys := hkeys ▸ List.mem_append_left _ hin
  by_cases heq : id = dropped
  · exact h.not_mem_done hkeys (heq ▸ hin)
  · have hp := htakes.parent? h.old h.oldTables heq (h.contains_of_drop hdropped)
      (h.contains_of_drop hkey)
    exact h.not_mem_done_of_precedes hkeys (h.owner_dropped_last hp hkey hdropped) hin

/-- The children of a dropped object that can own others are dropped before it. -/
theorem child_dropped {owner child : ObjectId} (hsub : child.kind.isSubElement = false)
    (hp : st.plan.old.parent? child = some owner) (hkey : ⟨.drop, owner⟩ ∈ m.keys) :
    ⟨.drop, child⟩ ∈ m.keys := by
  have hold := Snapshot.contains_of_parent? hp
  cases hnew : st.plan.new.contains child with
  | false => exact h.drop_of_gone hsub hold hnew
  | true =>
    have hsame := h.parent?_eq hsub hold hnew
    have hrecreates := h.recreates_of_drop (h.old.not_isSubElement_of_parent? hp) hkey
      (h.new.owner_of_parent? (hsame ▸ hp)).1
    obtain ⟨entry, hentry, halters, -⟩ := h.complete.returned hrecreates (hsame ▸ hp)
      (by intro hcolumn; rw [hcolumn] at hsub; cases hsub)
    refine (h.drop_mem_iff hsub).2 ⟨entry, hentry, ?_⟩
    cases htreatment : entry.treatment with
    | drop | recreate => rfl
    | alter | alterWithDependents => rw [htreatment] at halters; cases halters
    | nothing => exact absurd htreatment (h.grounded child entry hentry).touched
    | create =>
      rcases h.covers.truthful.create hentry htreatment with hne | ⟨hsub', -⟩
      · exact absurd hsame hne
      · rw [hsub] at hsub'
        cases hsub'

/-- The children of a recreated object that can own others are created after it. -/
theorem child_created {owner child : ObjectId} (hsub : child.kind.isSubElement = false)
    (hp : st.plan.new.parent? child = some owner) (hrecreates : st.plan.Recreates owner) :
    ⟨.create, child⟩ ∈ m.keys := by
  have hnew := Snapshot.contains_of_parent? hp
  cases hold : st.plan.old.contains child with
  | false => exact h.create_of_fresh hsub hnew hold
  | true =>
    have hdrop := h.child_dropped hsub ((h.parent?_eq hsub hold hnew).trans hp)
      (h.mem_keys_of_recreates (h.new.not_isSubElement_of_parent? hp) hrecreates).1
    exact (h.mem_keys_of_recreates hsub (h.recreates_of_drop hsub hdrop hnew)).2

omit h in
/-- What stands directly under a schema is no sub-element. -/
theorem depth_of_schema {snapshot : Snapshot} {schema child : ObjectId}
    (hwf : snapshot.WellFormed) (hschema : schema.kind = .schema)
    (hp : snapshot.parent? child = some schema) :
    child.kind.depth = 2 ∧ child.kind.isSubElement = false := by
  have hdepth : child.kind.depth = 2 := by
    rw [ObjectKind.depth_of_canBeUnder (hwf.owner_of_parent? hp).2.1, hschema]
    rfl
  refine ⟨hdepth, ?_⟩
  rw [← Bool.not_eq_true, ObjectKind.isSubElement_iff_depth]
  omega

section
variable {schema : ObjectId} (hkeys : m.keys = done ++ ⟨.drop, schema⟩ :: rest)
  (hschema : schema.kind = .schema)
include hkeys hschema

/-- What the schema owns before it is dropped has been taken. -/
theorem exists_drop_of_schema (howns : st.plan.old.Owns schema id) :
    ∃ dropped, ⟨.drop, dropped⟩ ∈ done ∧ Takes dropped id := by
  have hkey := mem_keys_of_split hkeys
  obtain ⟨child, hp, hchild⟩ := Snapshot.exists_child_of_owns howns
  obtain ⟨hdepth, hsub⟩ := depth_of_schema h.old hschema hp
  have hdrop := h.child_dropped hsub hp hkey
  refine ⟨child, mem_done hkeys (h.owner_dropped_last hp hdrop hkey) fun heq =>
    h.old.ne_of_parent? hp (StepKey.mk.inj heq).2.symm, ?_⟩
  rcases hchild with rfl | howns
  · exact .inl rfl
  · obtain ⟨hsub, hpid⟩ := h.old.parent?_of_owns hdepth howns
    exact takes_of_parent? h.old hsub hpid

/-- What the schema owns afterwards has not been brought when it is dropped: it comes after the
schema, which is created again. -/
theorem not_brought_of_schema (howns : st.plan.new.Owns schema id) {created : ObjectId}
    (hin : ⟨.create, created⟩ ∈ done) : ¬ m.Brings created id := by
  intro hbrings
  have hkey := mem_keys_of_split hkeys
  have hnotSub : schema.kind.isSubElement = false := by rw [hschema]; rfl
  have hrecreates := h.recreates_of_drop hnotSub hkey (h.new.contains_owner howns)
  have hschemaCreated := (h.mem_keys_of_recreates hnotSub hrecreates).2
  obtain ⟨child, hp, hchild⟩ := Snapshot.exists_child_of_owns howns
  obtain ⟨hdepth, hsub⟩ := depth_of_schema h.new hschema hp
  have hchildCreated := h.child_created hsub hp hrecreates
  have hprecedes := (h.drop_precedes_create hkey hschemaCreated).trans
    (h.owner_created_first hp hschemaCreated hchildCreated)
  refine h.not_mem_done_of_precedes hkeys ?_ hin
  rcases hchild with rfl | howns
  · obtain rfl : id = created := hbrings.resolve_right fun ⟨_, _, hkind⟩ => by
      rw [ObjectKind.isSubElement_of_inline (hkind.imp_right And.left)] at hsub
      cases hsub
    exact hprecedes
  · have hpid := (h.new.parent?_of_owns hdepth howns).2
    rcases hbrings with rfl | ⟨-, hp', -⟩
    · have hcreated : ⟨.create, id⟩ ∈ m.keys := hkeys ▸ List.mem_append_left _ hin
      exact hprecedes.trans (h.owner_created_first hpid hchildCreated hcreated)
    · rw [h.runs.new, hpid] at hp'
      obtain rfl := Option.some.inj hp'
      exact hprecedes

/-- When a schema is dropped, nothing is left in it. -/
theorem eq_of_schemaName? (hid : m.Present done id)
    (hname : id.schemaName? = schema.schemaName?) : id = schema := by
  have hlength : schema.path.length = 1 := by
    rw [h.old.length_path (h.contains_of_drop (mem_keys_of_split hkeys)), hschema]
    rfl
  by_contra hne
  rcases hid with ⟨created, hin, hbrings⟩ | ⟨hold, hkept⟩
  · have hcreated : ⟨.create, created⟩ ∈ m.keys := hkeys ▸ List.mem_append_left _ hin
    have howns := (h.new.owns_of_schemaName? hschema hlength
      (h.contains_of_brings hcreated hbrings) hname).resolve_left hne
    exact h.not_brought_of_schema hkeys hschema howns hin hbrings
  · rw [h.runs.old] at hold
    have howns := (h.old.owns_of_schemaName? hschema hlength hold hname).resolve_left hne
    obtain ⟨dropped, hin, htakes⟩ := h.exists_drop_of_schema hkeys hschema howns
    exact hkept dropped hin htakes

end

/-! ### Alterations -/

/-- An alteration is that of an entry. -/
theorem exists_entry_of_alter (hkey : ⟨.alter, id⟩ ∈ m.keys) :
    ∃ entry, st.plan.get? id = some entry ∧ st.asks entry .alter = true :=
  h.exists_entry_of_planned ((h.runs.mem_keys.1 hkey).resolve_right fun hdetached => by
    rcases (Staging.key_mem_detachedSteps.1 hdetached).2.1 with heq | heq <;> cases heq)

/-- The owner of a sub-element that is altered is not dropped: the sub-element would come back with
it, or have moved away. -/
theorem owner_not_dropped {owner : ObjectId} {entry : PlanEntry}
    (hentry : st.plan.get? entry.id = some entry) (hasks : st.asks entry .alter = true)
    (hsub : entry.id.kind.isSubElement = true) (hp : st.plan.old.parent? entry.id = some owner) :
    ⟨.drop, owner⟩ ∉ m.keys := by
  intro hdropped
  obtain ⟨halters, habsorbed⟩ := Staging.asks_iff.1 hasks
  have hnew := (h.grounded _ entry hentry).new fun heq => by rw [heq] at halters; cases halters
  by_cases hsame : st.plan.old.parent? entry.id = st.plan.new.parent? entry.id
  · have hpnew := hsame ▸ hp
    have hrecreates := h.recreates_of_drop (h.new.not_isSubElement_of_parent? hpnew) hdropped
      (h.new.owner_of_parent? hpnew).1
    by_cases hcolumn : entry.id.kind = .column
    · obtain ⟨found, hfound, hrecreate⟩ := hrecreates
      have hspared : st.spared entry.id .alter = true :=
        (Plan.createdWithTable_iff h.new hnew).2
          ⟨hsub, owner, hpnew, found, hfound, by rw [hrecreate]; rfl⟩
      exact habsorbed ⟨hspared, h.runs.travels_iff.2 (.inl hcolumn)⟩
    · obtain ⟨found, hfound, hnotAltered, -⟩ := h.complete.returned hrecreates hpnew hcolumn
      obtain rfl := Option.some.inj (hentry.symm.trans hfound)
      exact absurd halters (Bool.eq_false_iff.1 hnotAltered)
  · obtain ⟨found, hfound, hcreate⟩ := h.covers.created hnew hsame fun hcolumn table htable => by
      rw [← h.old.parent_eq_of_inline h.new (.inl hcolumn) hp htable]
      exact (h.old.owner_of_parent? hp).1
    obtain rfl := Option.some.inj (hentry.symm.trans hfound)
    rw [hcreate] at halters
    cases halters

/-- What is altered was there before. -/
theorem contains_of_alter (hkey : ⟨.alter, id⟩ ∈ m.keys) : st.plan.old.contains id = true := by
  obtain ⟨entry, hentry, hasks⟩ := h.exists_entry_of_alter hkey
  have halters := (Staging.asks_iff.1 hasks).1
  obtain rfl := (Plan.get?_some hentry).2
  exact (h.grounded _ entry hentry).old fun heq => by rw [heq] at halters; cases halters

/-- Nothing takes what is altered. -/
theorem not_taken_of_alter (hkey : ⟨.alter, id⟩ ∈ m.keys) : ¬ m.Taken id := by
  rintro ⟨dropped, hdropped, htakes⟩
  obtain ⟨entry, hentry, hasks⟩ := h.exists_entry_of_alter hkey
  have halters : entry.treatment.alters = true := (Staging.asks_iff.1 hasks).1
  have hold := h.contains_of_alter hkey
  obtain rfl := (Plan.get?_some hentry).2
  by_cases heq : entry.id = dropped
  · subst heq
    rcases h.runs.mem_keys.1 hdropped with hplanned | hdetached
    · obtain ⟨found, hfound, hasks⟩ := h.exists_entry_of_planned hplanned
      obtain rfl := Option.some.inj (hentry.symm.trans hfound)
      have hdrops := (Bool.and_eq_true_iff.1 hasks).1
      cases htreatment : entry.treatment <;> rw [htreatment] at halters hdrops <;>
        first | cases halters; done | cases hdrops
    · obtain ⟨hsub, owner, hp, hplanned⟩ := Staging.exists_owner_of_detached hdetached h.old
      exact h.owner_not_dropped hentry hasks hsub hp (h.runs.mem_keys.2 (.inl hplanned))
  · have hp := htakes.parent? h.old h.oldTables heq (h.contains_of_drop hdropped) hold
    exact h.owner_not_dropped hentry hasks (htakes.eq_or.resolve_left heq).1 hp hdropped

/-- What is altered is there. -/
theorem present_of_alter (hkey : ⟨.alter, id⟩ ∈ m.keys) (hdone : m.keys = done ++ rest) :
    m.Present done id :=
  .inr ⟨h.runs.old.symm ▸ h.contains_of_alter hkey, fun dropped hin htakes =>
    h.not_taken_of_alter hkey ⟨dropped, hdone ▸ List.mem_append_left _ hin, htakes⟩⟩

/-- A column that has an entry and stays under its table is altered or brought. -/
theorem brought_or_altered {entry : PlanEntry} (hentry : st.plan.get? id = some entry)
    (hcolumn : id.kind = .column) (hnew : st.plan.new.contains id = true)
    (hsame : st.plan.old.parent? id = st.plan.new.parent? id) :
    m.Brought id ∨ ⟨.alter, id⟩ ∈ m.keys := by
  have hnotDrop := h.treatment_ne_drop hentry hsame
  obtain rfl := (Plan.get?_some hentry).2
  by_cases halters : entry.treatment.alters = true
  · by_cases hasks : st.asks entry .alter = true
    · exact .inr (h.mem_keys_of_asks hentry hasks)
    · -- Otherwise the column comes with its table.
      rw [Staging.asks_iff, not_and_not_right] at hasks
      obtain ⟨-, table, hp, hcreates⟩ :=
        (Plan.createdWithTable_iff h.new hnew).1 (hasks halters).1
      exact .inl (h.brought_of_table_created (.inl hcolumn) hp
        ((h.create_mem_iff (h.new.not_isSubElement_of_parent? hp)).2 hcreates))
  · refine .inl (h.brought_of_creates hentry ?_)
    cases htreatment : entry.treatment with
    | create | recreate => rfl
    | drop => exact absurd htreatment hnotDrop
    | nothing => exact absurd htreatment (h.grounded _ entry hentry).touched
    | alter | alterWithDependents => rw [htreatment] at halters; exact absurd rfl halters

/-! ### Creations -/

/-- What comes with its table has no action of its own. -/
theorem not_created_of_table_created {table : ObjectId} (hkey : ⟨.create, table⟩ ∈ m.keys)
    (hp : st.plan.new.parent? id = some table)
    (hkind : id.kind = .column ∨ id.kind = .constraint ∧ id ∉ m.detached) :
    ⟨.create, id⟩ ∉ m.keys := by
  intro hown
  have hnotSub := h.new.not_isSubElement_of_parent? hp
  have hsub := ObjectKind.isSubElement_of_inline (hkind.imp_right And.left)
  rcases h.runs.mem_keys.1 hown with hplanned | hdetached
  · obtain ⟨entry, hentry, hasks⟩ := h.exists_entry_of_planned hplanned
    obtain rfl := (Plan.get?_some hentry).2
    have hspared : st.spared entry.id .alter = true :=
      (Plan.createdWithTable_iff h.new (Snapshot.contains_of_parent? hp)).2
        ⟨hsub, table, hp, (h.create_mem_iff hnotSub).1 hkey⟩
    exact (Staging.asks_iff.1 hasks).2 ⟨hspared, h.runs.travels_iff.2 hkind⟩
  · have hin : id ∈ m.detached := by
      rw [h.runs.detached, ObjectId.mem_sortedSet]
      exact (Staging.key_mem_detachedSteps.1 hdetached).1
    rcases hkind with hkind | ⟨-, hnot⟩
    · have := h.runs.constraints id hin
      rw [hkind] at this
      cases this
    · exact hnot hin

/-- Only one action brings an object. -/
theorem created_unique {created other : ObjectId} (hkey : ⟨.create, created⟩ ∈ m.keys)
    (hbrings : m.Brings created id) (hother : ⟨.create, other⟩ ∈ m.keys)
    (hbrings' : m.Brings other id) : created = other := by
  rcases hbrings with rfl | ⟨-, hp, hkind⟩ <;> rcases hbrings' with rfl | ⟨-, hp', hkind'⟩
  · rfl
  · rw [h.runs.new] at hp'
    exact absurd hkey (h.not_created_of_table_created hother hp' hkind')
  · rw [h.runs.new] at hp
    exact absurd hother (h.not_created_of_table_created hkey hp hkind)
  · exact Option.some.inj (hp.symm.trans hp')

/-- What is brought is not there before. -/
theorem not_present_of_brings {created : ObjectId}
    (hkeys : m.keys = done ++ ⟨.create, created⟩ :: rest) (hbrings : m.Brings created id) :
    ¬ m.Present done id := by
  have hkey := mem_keys_of_split hkeys
  rintro (⟨other, hin, hbrings'⟩ | ⟨hold, hkept⟩)
  · have hother : ⟨.create, other⟩ ∈ m.keys := hkeys ▸ List.mem_append_left _ hin
    obtain rfl := h.created_unique hkey hbrings hother hbrings'
    exact h.not_mem_done hkeys hin
  · rw [h.runs.old] at hold
    obtain ⟨dropped, hdropped, htakes⟩ := h.taken_of_brought ⟨created, hkey, hbrings⟩ hold
    exact hkept dropped
      (mem_done hkeys (h.precedes hdropped htakes hkey hbrings) (by simp)) htakes

section
variable (hkeys : m.keys = done ++ ⟨.create, id⟩ :: rest)
include hkeys

/-- The parent of what is created is there. -/
theorem parent_present {parent : ObjectId} (hp : st.plan.new.parent? id = some parent) :
    m.Present done parent := by
  have hkey := mem_keys_of_split hkeys
  by_cases hcreated : ⟨.create, parent⟩ ∈ m.keys
  · exact .inl ⟨parent, mem_done hkeys (h.owner_created_first hp hcreated hkey) fun heq =>
      h.new.ne_of_parent? hp (StepKey.mk.inj heq).2, .inl rfl⟩
  · have hnotBrought : ¬ m.Brought parent := by
      rintro ⟨created, hin, rfl | ⟨-, -, hkind⟩⟩
      · exact hcreated hin
      · have hsub := ObjectKind.isSubElement_of_inline (hkind.imp_right And.left)
        rw [h.new.not_isSubElement_of_parent? hp] at hsub
        cases hsub
    have hkept : st.plan.old.contains parent = true ∧ ¬ m.Taken parent := by
      by_contra hnot
      exact hnotBrought (h.brought (h.new.owner_of_parent? hp).1 fun hold => by
        by_contra hfree
        exact hnot ⟨hold, hfree⟩)
    exact .inr ⟨h.runs.old.symm ▸ hkept.1, fun dropped hin htakes => hkept.2
      ⟨dropped, hkeys ▸ List.mem_append_left _ hin, htakes⟩⟩

/-- No relation of the name of what is created is there. -/
theorem relationKey?_ne (hrelations : st.plan.new.RelationsApart)
    (hsome : id.relationKey?.isSome = true) {other : ObjectId} (hother : m.Present done other) :
    other.relationKey? ≠ id.relationKey? := by
  intro heq
  have hkey := mem_keys_of_split hkeys
  have hgone : st.plan.new.contains other = false := by
    by_contra hnew
    rw [Bool.not_eq_false] at hnew
    obtain rfl := hrelations.eq (h.contains_of_create hkey) hnew hsome heq.symm
    exact h.not_present_of_brings hkeys (.inl rfl) hother
  rcases hother with ⟨created, hin, hbrings⟩ | ⟨hold, hkept⟩
  · have hcreated : ⟨.create, created⟩ ∈ m.keys := hkeys ▸ List.mem_append_left _ hin
    rw [h.contains_of_brings hcreated hbrings] at hgone
    cases hgone
  · rw [h.runs.old] at hold
    have hsub : other.kind.isSubElement = false := by
      rw [← heq, ObjectId.relationKey?] at hsome
      cases hkind : other.kind <;> rw [hkind] at hsome <;> first | rfl | cases hsome
    have hdrop := h.drop_of_gone hsub hold hgone
    exact hkept other
      (mem_done hkeys (h.relation_dropped_first hsub hdrop hkey hsome heq) (by simp)) (.inl rfl)

end

/-! ### Runs -/

/-- Every action is admitted where the objects exist that exist after those before it, and leaves
those that exist after it as well. -/
theorem admits_and_effect (hrelations : st.plan.new.RelationsApart) {action : Action}
    (haction : action ∈ m.actions) (hkeys : m.keys = done ++ action.key :: rest)
    {state : Finset ObjectId} (hstate : ∀ id, id ∈ state ↔ m.Present done id) :
    Admits state action.kind action.statement ∧
      ∀ id, id ∈ m.effect state action.key ↔ m.Present (done ++ [action.key]) id := by
  obtain ⟨hkey, hs⟩ := h.runs.statement?_of_action haction
  obtain ⟨kind, treatment, s, refresh, statements⟩ := action
  change m.keys = done ++ ⟨kind, s.id⟩ :: rest at hkeys
  change ⟨kind, s.id⟩ ∈ m.keys at hkey
  change st.statement? ⟨kind, s.id⟩ = some s at hs
  change Admits state kind s ∧
    ∀ id, id ∈ m.effect state ⟨kind, s.id⟩ ↔ m.Present (done ++ [⟨kind, s.id⟩]) id
  cases kind with
  | drop =>
    refine ⟨⟨(hstate _).2 (h.present_of_drop hkeys), fun hschema id hid hname =>
      h.eq_of_schemaName? hkeys hschema ((hstate id).1 hid) hname⟩, fun id => ?_⟩
    rw [h.present_append_drop hkeys, ← hstate]
    exact Finset.mem_filter
  | alter =>
    refine ⟨(hstate _).2 (h.present_of_alter hkey hkeys), fun id => ?_⟩
    rw [present_append_alter]
    exact hstate id
  | create =>
    refine ⟨⟨fun hin => h.not_present_of_brings hkeys (.inl rfl) ((hstate _).1 hin),
      fun parent hparent =>
      (hstate _).2 (h.parent_present hkeys (Snapshot.parent?_eq_some.2 ⟨s, hs, hparent⟩)),
      fun hsome id hid => h.relationKey?_ne hkeys hrelations hsome ((hstate id).1 hid)⟩,
      fun id => ?_⟩
    rw [present_append_create, ← hstate]
    change id ∈ state ∪ (insert s.id m.new.ids).filter (m.Brings s.id) ↔ _
    rw [Finset.mem_union, Finset.mem_filter, Finset.mem_insert, Snapshot.mem_ids]
    refine or_congr_right ⟨And.right, fun hbrings => ⟨?_, hbrings⟩⟩
    exact hbrings.imp_right fun ⟨_, hp, _⟩ => Snapshot.contains_of_parent? hp
  | passThrough =>
    exact absurd rfl (Staging.kind_ne_passThrough h.runs.steps (h.runs.keys.mem_iff.1 hkey))

/-- The actions that are left run through, from what exists after those before them. -/
theorem execute_rest (hrelations : st.plan.new.RelationsApart) (before after : List Action)
    (hactions : m.actions = before ++ after) {state : Finset ObjectId}
    (hstate : ∀ id, id ∈ state ↔ m.Present (before.map (·.key)) id) :
    ∃ final, m.execute after state = some final ∧ ∀ id, id ∈ final ↔ m.Present m.keys id := by
  induction after generalizing before state with
  | nil =>
    refine ⟨state, rfl, fun id => ?_⟩
    rw [hstate, keys, hactions, List.append_nil]
  | cons action after ih =>
    have hkeys : m.keys = before.map (·.key) ++ action.key :: after.map (·.key) := by
      rw [keys, hactions, List.map_append, List.map_cons]
    have haction : action ∈ m.actions := hactions ▸ List.mem_append_right _ List.mem_cons_self
    obtain ⟨hadmits, heffect⟩ := h.admits_and_effect hrelations haction hkeys hstate
    rw [execute, if_pos hadmits]
    refine ih (before ++ [action]) (by rw [hactions, List.append_assoc]; rfl) ?_
    rw [List.map_append]
    exact heffect

end Bridges

/-- The migration of elements that tell how two snapshots differ bridges them. -/
theorem Derives.bridges {m : Migration} {old new : Snapshot} {elements : List Element}
    {extra : ExtraDependencies} {plan : Plan} {st : Staging} {planned : List Step}
    (h : m.Derives old new elements extra plan st planned) (hold : old.WellFormed)
    (hnew : new.WellFormed) (holdTables : old.TablesApart) (hnewTables : new.TablesApart)
    (htells : Difference.Tells old new elements) : m.Bridges st planned extra.old where
  old := h.planOld.symm ▸ hold
  new := h.planNew.symm ▸ hnew
  oldTables := h.planOld.symm ▸ holdTables
  newTables := h.planNew.symm ▸ hnewTables
  runs := h.runs
  distinct := h.distinct
  grounded := h.grounded
  complete := h.complete
  covers :=
    (Plan.covers_of_tells hold hnew htells h.selected).edited h.initial.old h.initial.new h.edited

/-- The migration of two snapshots bridges them. -/
theorem exists_bridges {m : Migration} {old new : Snapshot} {extra : ExtraDependencies}
    (hold : old.WellFormed) (hnew : new.WellFormed) (holdTables : old.TablesApart)
    (hnewTables : new.TablesApart) (hprints : old.PrintsTell new)
    (hm : ofSnapshots old new {} extra = .ok m) :
    ∃ st planned, m.Bridges st planned extra.old ∧ st.plan.old = old ∧ st.plan.new = new := by
  obtain ⟨tree, htree, hm⟩ := bind_eq_ok.1 hm
  obtain ⟨plan, st, planned, h⟩ := exists_derives hold hnew hm
  have htells := Difference.tells_of_ofSnapshots hold hnew holdTables hnewTables hprints htree
  exact ⟨st, planned, h.bridges hold hnew holdTables hnewTables htells, h.planOld, h.planNew⟩

/-- **A migration leads from the old snapshot to the new one.** Run on the objects of the old
snapshot, its actions are admitted one after the other, and what exists in the end are the objects
of the new one. -/
theorem execute_actions {m : Migration} {old new : Snapshot} {extra : ExtraDependencies}
    (hold : old.WellFormed) (hnew : new.WellFormed) (holdRelations : old.RelationsApart)
    (hnewRelations : new.RelationsApart) (hprints : old.PrintsTell new)
    (hm : ofSnapshots old new {} extra = .ok m) : m.execute m.actions old.ids = some new.ids := by
  obtain ⟨st, planned, h, rfl, rfl⟩ := exists_bridges hold hnew (holdRelations.tablesApart hold)
    (hnewRelations.tablesApart hnew) hprints hm
  have hstart : ∀ id, id ∈ st.plan.old.ids ↔ m.Present (([] : List Action).map (·.key)) id := by
    intro id
    rw [Snapshot.mem_ids, Present, h.runs.old]
    simp
  obtain ⟨final, hfinal, hids⟩ := h.execute_rest hnewRelations [] m.actions rfl hstart
  rw [hfinal]
  congr 1
  ext id
  rw [hids, h.present_keys_iff, Snapshot.mem_ids]

/-! ### A table that becomes a view -/

namespace TableToView

/-- The schema. -/
def schema : ObjectId := ⟨.schema, ["a"]⟩

/-- The table. -/
def table : ObjectId := .table "a" "s"

/-- The view of the same name. -/
def view : ObjectId := ⟨.view, ["a", "s"]⟩

/-- The schema with one object that has an index, and maybe columns. All fingerprints are made of
one digest. -/
def snapshot (owner : ObjectId) (definition : Definition) (columns : List ObjectId)
    (digest : Digest) : Snapshot where
  dialect := .postgres
  statements :=
    [{ id := .database, parent := none, definition := .database, children := [schema] },
     { id := schema, parent := some .database, definition := .schema {}, children := [owner] },
     { id := owner, parent := some schema, definition,
       children := columns ++ [owner.child .index "i"] }] ++
    columns.map (fun id =>
      { id, parent := some owner, definition := .column { dataType := "int" } }) ++
    [{ id := owner.child .index "i", parent := some owner, definition := .index {} }]
  fingerprints := [.database, schema, owner, owner.child .index "i"].map fun id =>
    (id, ⟨digest, digest, digest⟩)

/-- The schema with the table. -/
def before : Snapshot := snapshot table (.table {}) [table.child .column "x"] ⟨[0]⟩

/-- The schema with the view. -/
def after : Snapshot :=
  snapshot view (.view { query := "SELECT 1 AS x", materialized := true }) [] ⟨[1]⟩

/-- The index goes with the table and is created again when the view is there. -/
theorem table_replaced_by_view :
    ∃ m, ofSnapshots before after {} {} = .ok m ∧
      m.keys = [⟨.drop, table⟩, ⟨.create, view⟩, ⟨.create, view.child .index "i"⟩] ∧
      m.execute m.actions before.ids = some after.ids := by
  obtain ⟨m, hm, htest⟩ := exists_ok_of_test (p := fun m : Migration => decide
      (m.keys = [⟨.drop, table⟩, ⟨.create, view⟩, ⟨.create, view.child .index "i"⟩]))
    (show (ofSnapshots before after {} {}).toOption.any _ = true by decide +kernel)
  -- No fingerprint of an object is the same on both sides.
  have hprints : ∀ id, after.contains id = true →
      (before.fingerprint id).tree ≠ (after.fingerprint id).tree ∧
        (before.fingerprint id).element ≠ (after.fingerprint id).element := by
    have hall : ∀ s ∈ after.statements,
        (before.fingerprint s.id).tree ≠ (after.fingerprint s.id).tree ∧
          (before.fingerprint s.id).element ≠ (after.fingerprint s.id).element := by decide +kernel
    intro id hid
    obtain ⟨s, hs, rfl⟩ := Snapshot.contains_iff_exists_mem.1 hid
    exact hall s hs
  exact ⟨m, hm, of_decide_eq_true htest, execute_actions (by decide +kernel) (by decide +kernel)
    (by decide +kernel) (by decide +kernel)
    ⟨fun _ hid heq => absurd heq (hprints _ hid).1,
      fun _ hid heq => absurd heq (hprints _ hid).2⟩ hm⟩

end TableToView

end Migration

end SchemaMigration
