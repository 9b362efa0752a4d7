import SchemaMigration.Proofs.Migration.Actions
import SchemaMigration.Proofs.Plan.Coverage

/-!
# What the actions of a migration bring and take

A drop takes an object and the sub-elements under it; a creation brings an object and, with a table,
its columns and its constraints unless they are detached. A migration that bridges two snapshots
(`Migration.Bridges`) takes what is gone (`Bridges.taken_of_gone`), brings what is new, and brings
back what it takes if it is to stay (`Bridges.brought`); and whatever it does both with is taken
before it is brought (`Bridges.precedes`).
-/

namespace SchemaMigration

namespace Migration

/-! ## Effects of actions -/

/-- Dropping one object takes another one: itself, or a sub-element under it. -/
def Takes (dropped id : ObjectId) : Prop :=
  id = dropped ∨ id.kind.isSubElement = true ∧ id.kind.canBeUnder dropped.kind = true ∧
    id.containerPath = dropped.path

/-- Creating one object brings another one: itself, or if it is a table one of its columns or of its
constraints that are not detached. -/
def Brings (m : Migration) (created id : ObjectId) : Prop :=
  id = created ∨ created.kind = .table ∧ m.new.parent? id = some created ∧
    (id.kind = .column ∨ id.kind = .constraint ∧ id ∉ m.detached)

/-- Whether a drop takes an object can be computed. -/
instance (dropped id : ObjectId) : Decidable (Takes dropped id) :=
  inferInstanceAs (Decidable (_ ∨ _))

/-- Whether a creation brings an object can be computed. -/
instance (m : Migration) (created id : ObjectId) : Decidable (m.Brings created id) :=
  inferInstanceAs (Decidable (_ ∨ _))

/-- Some action takes an object. -/
def Taken (m : Migration) (id : ObjectId) : Prop :=
  ∃ dropped, ⟨.drop, dropped⟩ ∈ m.keys ∧ Takes dropped id

/-- Some action brings an object. -/
def Brought (m : Migration) (id : ObjectId) : Prop :=
  ∃ created, ⟨.create, created⟩ ∈ m.keys ∧ m.Brings created id

/-- Some action is taken before another one: whenever the other one has run, it has run. -/
def Precedes (m : Migration) (earlier later : StepKey) : Prop :=
  ∀ done rest, m.keys = done ++ rest → later ∈ done → earlier ∈ done

/-- What runs before something precedes it. -/
theorem RunsBefore.precedes {m : Migration} {earlier later : StepKey}
    (h : m.RunsBefore earlier later) (hnodup : m.keys.Nodup) : m.Precedes earlier later := by
  intro done rest hkeys hlater
  rw [RunsBefore, hkeys] at h
  rw [hkeys] at hnodup
  obtain ⟨first, second, hsplit, hfirst, hsecond⟩ := List.sublist_append_iff.1 h
  cases first with
  | nil =>
    rw [List.nil_append] at hsplit
    have hrest : later ∈ rest :=
      hsecond.subset (hsplit ▸ List.mem_cons_of_mem _ List.mem_cons_self)
    exact absurd rfl (List.nodup_append.1 hnodup |>.2.2 later hlater later hrest)
  | cons key first =>
    obtain rfl : earlier = key := (List.cons.inj hsplit).1
    exact hfirst.subset List.mem_cons_self

/-- Precedence in two stages. -/
theorem Precedes.trans {m : Migration} {a b c : StepKey} (hab : m.Precedes a b)
    (hbc : m.Precedes b c) : m.Precedes a c := fun done rest hkeys hc =>
  hab done rest hkeys (hbc done rest hkeys hc)

/-- Dropping an object takes the sub-elements that stand under it. -/
theorem takes_of_parent? {snapshot : Snapshot} {id owner : ObjectId} (h : snapshot.WellFormed)
    (hsub : id.kind.isSubElement = true) (hp : snapshot.parent? id = some owner) :
    Takes owner id :=
  .inr ⟨hsub, (h.owner_of_parent? hp).2.1, h.containerPath_of_parent? hp⟩

/-- What a drop takes is the object, or a sub-element that stands under a table or view of its
path. -/
theorem Takes.eq_or {dropped id : ObjectId} (h : Takes dropped id) :
    id = dropped ∨ id.kind.isSubElement = true ∧
      (dropped.kind = .table ∨ dropped.kind = .view) ∧ id.containerPath = dropped.path :=
  h.imp_right fun ⟨hsub, hunder, hpath⟩ =>
    ⟨hsub, ObjectKind.table_or_view_of_canBeUnder hsub hunder, hpath⟩

/-- What a drop takes besides its object stands under it, if both are there. -/
theorem Takes.parent? {snapshot : Snapshot} {dropped id : ObjectId} (h : snapshot.WellFormed)
    (htables : snapshot.TablesApart) (htakes : Takes dropped id) (hne : id ≠ dropped)
    (hdropped : snapshot.contains dropped = true) (hid : snapshot.contains id = true) :
    snapshot.parent? id = some dropped := by
  obtain ⟨hsub, hkind, hpath⟩ := htakes.eq_or.resolve_left hne
  obtain ⟨p, hp⟩ := h.exists_parent? hid (by rintro rfl; cases hsub)
  rw [hp, htables.eq_of_path (h.owner_of_parent? hp).1 hdropped (h.table_or_view_of_parent? hsub hp)
    hkind (by rw [← h.containerPath_of_parent? hp, hpath])]

/-! ## What entries bring -/

section
variable {m : Migration} {st : Staging} {planned : List Step} {id : ObjectId}
  (h : m.Runs st planned) (hnew : st.plan.new.WellFormed)
include h hnew

/-- What an entry creates is brought, by an action of its own or with its table. -/
theorem Runs.brought_of_creates (hplan : st.plan.Distinct) (hgrounded : st.plan.Grounded)
    {entry : PlanEntry} (hentry : st.plan.get? id = some entry)
    (hcreates : entry.treatment.creates = true) : m.Brought id := by
  by_cases hasks : st.asks entry .create = true
  · exact ⟨id, h.mem_keys_of_asks hentry hasks, .inl rfl⟩
  obtain rfl := (Plan.get?_some hentry).2
  have hthere := (hgrounded _ entry hentry).new fun heq => by rw [heq] at hcreates; cases hcreates
  rw [Staging.asks_iff, not_and_not_right] at hasks
  obtain ⟨hspared, htravels⟩ := hasks hcreates
  obtain ⟨hsub, owner, hp, table, htable, htableCreates⟩ :=
    (Plan.createdWithTable_iff hnew hthere).1 hspared
  obtain ⟨-, hunder, -⟩ := hnew.owner_of_parent? hp
  have hkind := h.travels_iff.1 htravels
  have htableKind := ObjectKind.eq_table_of_canBeUnder (hkind.imp_right And.left) hunder
  exact ⟨owner, (h.mem_keys_iff_of_not_isSubElement hplan (hnew.not_isSubElement_of_parent? hp)).2
    ⟨table, htable, htableCreates⟩, .inr ⟨htableKind, by rw [h.new, hp], hkind⟩⟩

/-- Columns and constraints of a table that is created are brought, detached ones by an action of
their own. -/
theorem Runs.brought_of_table_created (hkind : id.kind = .column ∨ id.kind = .constraint)
    {owner : ObjectId} (hp : st.plan.new.parent? id = some owner)
    (hkey : ⟨.create, owner⟩ ∈ m.keys) : m.Brought id := by
  by_cases hown : ⟨.create, id⟩ ∈ m.keys
  · exact ⟨id, hown, .inl rfl⟩
  · have htravels := h.travels_of_absent (.inl rfl) hnew hown hkind hp hkey
    exact ⟨owner, hkey, .inr ⟨ObjectKind.eq_table_of_canBeUnder hkind
      (hnew.owner_of_parent? hp).2.1, by rw [h.new, hp], h.travels_iff.1 htravels⟩⟩

end

/-! ## Migrations that bridge two snapshots -/

/-- A migration bridges its snapshots: it runs the steps of a complete plan that covers all their
differences. -/
structure Bridges (m : Migration) (st : Staging) (planned : List Step)
    (extra : List DependencyPair) : Prop where
  old : st.plan.old.WellFormed
  new : st.plan.new.WellFormed
  oldTables : st.plan.old.TablesApart
  newTables : st.plan.new.TablesApart
  runs : m.Runs st planned
  distinct : st.plan.Distinct
  grounded : st.plan.Grounded
  complete : st.plan.Complete extra
  covers : st.plan.Covers

namespace Bridges

variable {m : Migration} {st : Staging} {planned : List Step} {extra : List DependencyPair}
  {id owner : ObjectId} {entry : PlanEntry} (h : m.Bridges st planned extra)
include h

/-! ### Objects that are no sub-elements -/

/-- What is dropped is there before. -/
theorem contains_of_drop (hkey : ⟨.drop, id⟩ ∈ m.keys) : st.plan.old.contains id = true := by
  obtain ⟨step, -, -, hs⟩ := h.runs.exists_statement hkey
  exact Snapshot.contains_iff.2 ⟨_, hs⟩

/-- What is created is there afterwards. -/
theorem contains_of_create (hkey : ⟨.create, id⟩ ∈ m.keys) : st.plan.new.contains id = true := by
  obtain ⟨step, -, -, hs⟩ := h.runs.exists_statement hkey
  exact Snapshot.contains_iff.2 ⟨_, hs⟩

/-- What a creation brings is there afterwards. -/
theorem contains_of_brings {created : ObjectId} (hkey : ⟨.create, created⟩ ∈ m.keys)
    (hbrings : m.Brings created id) : st.plan.new.contains id = true := by
  rcases hbrings with rfl | ⟨-, hp, -⟩
  · exact h.contains_of_create hkey
  · exact Snapshot.contains_of_parent? (h.runs.new ▸ hp)

/-- The entry of a planned step asks for it. -/
theorem exists_entry_of_planned {key : StepKey} (hkey : key ∈ planned.map (·.key)) :
    ∃ entry, st.plan.get? key.id = some entry ∧ st.asks entry key.kind = true := by
  obtain ⟨entry, hentry, hid, hasks⟩ := (Staging.key_mem_planned h.runs.steps).1 hkey
  exact ⟨entry, hid ▸ h.distinct.get?_of_mem hentry, hasks⟩

/-- The step that an entry asks for is run. -/
theorem mem_keys_of_asks {kind : StepKind} (hentry : st.plan.get? id = some entry)
    (hasks : st.asks entry kind = true) : ⟨kind, id⟩ ∈ m.keys :=
  h.runs.mem_keys_of_asks hentry hasks

/-- What is no sub-element is dropped if its entry says so. -/
theorem drop_mem_iff (hsub : id.kind.isSubElement = false) :
    ⟨.drop, id⟩ ∈ m.keys ↔
      ∃ entry, st.plan.get? id = some entry ∧ entry.treatment.drops = true :=
  h.runs.mem_keys_iff_of_not_isSubElement h.distinct hsub

/-- What is no sub-element is created if its entry says so. -/
theorem create_mem_iff (hsub : id.kind.isSubElement = false) :
    ⟨.create, id⟩ ∈ m.keys ↔
      ∃ entry, st.plan.get? id = some entry ∧ entry.treatment.creates = true :=
  h.runs.mem_keys_iff_of_not_isSubElement h.distinct hsub

/-- What is recreated is dropped and created. -/
theorem mem_keys_of_recreates (hsub : id.kind.isSubElement = false)
    (hrecreates : st.plan.Recreates id) : ⟨.drop, id⟩ ∈ m.keys ∧ ⟨.create, id⟩ ∈ m.keys := by
  obtain ⟨entry, hentry, htreatment⟩ := hrecreates
  exact ⟨(h.drop_mem_iff hsub).2 ⟨entry, hentry, by rw [htreatment]; rfl⟩,
    (h.create_mem_iff hsub).2 ⟨entry, hentry, by rw [htreatment]; rfl⟩⟩

/-- What is there before and afterwards, under one parent, is not dropped for good. -/
theorem treatment_ne_drop (hentry : st.plan.get? id = some entry)
    (hsame : st.plan.old.parent? id = st.plan.new.parent? id) : entry.treatment ≠ .drop :=
  fun hdrop => h.covers.truthful.drop hentry hdrop hsame

/-- What is no sub-element stands under the same parent before and afterwards. -/
theorem parent?_eq (hsub : id.kind.isSubElement = false) (hold : st.plan.old.contains id = true)
    (hnew : st.plan.new.contains id = true) :
    st.plan.old.parent? id = st.plan.new.parent? id :=
  h.old.parent?_eq h.new hsub hold hnew

/-- What is no sub-element and is dropped is recreated if it is there afterwards. -/
theorem recreates_of_drop (hsub : id.kind.isSubElement = false) (hkey : ⟨.drop, id⟩ ∈ m.keys)
    (hnew : st.plan.new.contains id = true) : st.plan.Recreates id := by
  obtain ⟨entry, hentry, hdrops⟩ := (h.drop_mem_iff hsub).1 hkey
  have hnotDrop := h.treatment_ne_drop hentry (h.parent?_eq hsub (h.contains_of_drop hkey) hnew)
  cases htreatment : entry.treatment with
  | recreate => exact ⟨entry, hentry, htreatment⟩
  | drop => exact absurd htreatment hnotDrop
  | create | alter | alterWithDependents | nothing => rw [htreatment] at hdrops; cases hdrops

/-- What is no sub-element and is created is recreated if it is there before. -/
theorem recreates_of_create (hsub : id.kind.isSubElement = false) (hkey : ⟨.create, id⟩ ∈ m.keys)
    (hold : st.plan.old.contains id = true) : st.plan.Recreates id := by
  obtain ⟨entry, hentry, hcreates⟩ := (h.create_mem_iff hsub).1 hkey
  cases htreatment : entry.treatment with
  | recreate => exact ⟨entry, hentry, htreatment⟩
  | create =>
    rcases h.covers.truthful.create hentry htreatment with hne | ⟨hsub', -⟩
    · exact absurd (h.parent?_eq hsub hold (h.contains_of_create hkey)) hne
    · rw [hsub] at hsub'
      cases hsub'
  | drop | alter | alterWithDependents | nothing => rw [htreatment] at hcreates; cases hcreates

/-- What is no sub-element and is gone is dropped. -/
theorem drop_of_gone (hsub : id.kind.isSubElement = false) (hold : st.plan.old.contains id = true)
    (hgone : st.plan.new.contains id = false) : ⟨.drop, id⟩ ∈ m.keys := by
  obtain ⟨entry, hentry, hdrop⟩ := h.covers.dropped hold hgone fun hcolumn => by
    rw [hcolumn] at hsub
    cases hsub
  exact (h.drop_mem_iff hsub).2 ⟨entry, hentry, by rw [hdrop]; rfl⟩

/-- What is no sub-element and is new is created. -/
theorem create_of_fresh (hsub : id.kind.isSubElement = false)
    (hnew : st.plan.new.contains id = true) (hfresh : st.plan.old.contains id = false) :
    ⟨.create, id⟩ ∈ m.keys := by
  obtain ⟨entry, hentry, hcreate⟩ := h.covers.created hnew
    (Plan.parent?_ne_of_contains h.new h.old hnew hfresh).symm fun hcolumn => by
      rw [hcolumn] at hsub
      cases hsub
  exact (h.create_mem_iff hsub).2 ⟨entry, hentry, by rw [hcreate]; rfl⟩

/-! ### What is taken -/

/-- What an entry drops is taken. -/
theorem taken_of_drops (hentry : st.plan.get? id = some entry)
    (hdrops : entry.treatment.drops = true) : m.Taken id := by
  by_cases hasks : st.asks entry .drop = true
  · exact ⟨id, h.mem_keys_of_asks hentry hasks, .inl rfl⟩
  -- Otherwise the object goes with its table.
  obtain rfl := (Plan.get?_some hentry).2
  have hthere := (h.grounded _ entry hentry).old fun h => by rw [h] at hdrops; cases hdrops
  rw [Staging.asks_iff, not_and_not_right] at hasks
  obtain ⟨hsub, owner, hp, table, htable, htableDrops⟩ :=
    (Plan.droppedWithTable_iff h.old hthere).1 (hasks hdrops).1
  have howner := h.old.not_isSubElement_of_parent? hp
  exact ⟨owner, (h.drop_mem_iff howner).2 ⟨table, htable, htableDrops⟩,
    takes_of_parent? h.old hsub hp⟩

/-- What is gone is taken. -/
theorem taken_of_gone (hold : st.plan.old.contains id = true)
    (hgone : st.plan.new.contains id = false) : m.Taken id := by
  by_cases hcolumns : id.kind = .column →
      ∀ table, st.plan.old.parent? id = some table → st.plan.new.contains table = true
  · obtain ⟨entry, hentry, hdrop⟩ := h.covers.dropped hold hgone hcolumns
    exact h.taken_of_drops hentry (by rw [hdrop]; rfl)
  · simp only [not_forall, Bool.not_eq_true] at hcolumns
    obtain ⟨hcolumn, table, hp, htable⟩ := hcolumns
    exact ⟨table, h.drop_of_gone (h.old.not_isSubElement_of_parent? hp)
      (h.old.owner_of_parent? hp).1 htable, takes_of_parent? h.old (by rw [hcolumn]; rfl) hp⟩

/-- What moves from one parent to another one is taken: its old parent is gone. -/
theorem taken_of_moved (hold : st.plan.old.contains id = true)
    (hnew : st.plan.new.contains id = true)
    (hne : st.plan.old.parent? id ≠ st.plan.new.parent? id) : m.Taken id := by
  have hsub : id.kind.isSubElement = true := by
    by_contra hsub
    exact hne (h.parent?_eq (Bool.eq_false_iff.2 hsub) hold hnew)
  obtain ⟨owner, hp⟩ := h.old.exists_parent? hold (by rintro rfl; cases hsub)
  have hgone : st.plan.new.contains owner = false := by
    by_contra howner
    rw [Bool.not_eq_false] at howner
    exact hne (hp.trans (h.newTables.parent?_of_parent? h.new h.old hnew hp howner).symm)
  exact ⟨owner, h.drop_of_gone (h.old.not_isSubElement_of_parent? hp)
    (h.old.owner_of_parent? hp).1 hgone, takes_of_parent? h.old hsub hp⟩

/-- What is there before and stands under an object that is created is taken: the object is
recreated, or what stands under it has moved there. -/
theorem taken_of_owner_created (hsub : id.kind.isSubElement = true)
    (hp : st.plan.new.parent? id = some owner) (hkey : ⟨.create, owner⟩ ∈ m.keys)
    (hold : st.plan.old.contains id = true) : m.Taken id := by
  have howner := h.new.not_isSubElement_of_parent? hp
  cases hthere : st.plan.old.contains owner with
  | true =>
    have hrecreates := h.recreates_of_create howner hkey hthere
    exact ⟨owner, (h.mem_keys_of_recreates howner hrecreates).1,
      takes_of_parent? h.old hsub (h.oldTables.parent?_of_parent? h.old h.new hold hp hthere)⟩
  | false =>
    refine h.taken_of_moved hold (Snapshot.contains_of_parent? hp) fun heq => ?_
    rw [(h.old.owner_of_parent? (heq.trans hp)).1] at hthere
    cases hthere

/-- What is brought although it is there before is taken. -/
theorem taken_of_brought (hbrought : m.Brought id) (hold : st.plan.old.contains id = true) :
    m.Taken id := by
  obtain ⟨created, hkey, rfl | ⟨htable, hp, hkind⟩⟩ := hbrought
  · rcases h.runs.mem_keys.1 hkey with hplanned | hdetached
    · obtain ⟨entry, hentry, hasks⟩ := h.exists_entry_of_planned hplanned
      have hcreates : entry.treatment.creates = true := (Bool.and_eq_true_iff.1 hasks).1
      cases htreatment : entry.treatment with
      | recreate => exact h.taken_of_drops hentry (by rw [htreatment]; rfl)
      | create =>
        rcases h.covers.truthful.create hentry htreatment with hne | ⟨hsub, owner, hp, hrecreates⟩
        · exact h.taken_of_moved hold (h.contains_of_create hkey) hne
        · exact h.taken_of_owner_created hsub hp
            (h.mem_keys_of_recreates (h.new.not_isSubElement_of_parent? hp) hrecreates).2 hold
      | drop | alter | alterWithDependents | nothing => rw [htreatment] at hcreates; cases hcreates
    · -- A detached constraint is created beside its table.
      obtain ⟨hsub, owner, hp, howner⟩ := Staging.exists_owner_of_detached hdetached h.new
      exact h.taken_of_owner_created hsub hp (h.runs.mem_keys.2 (.inl howner)) hold
  · rw [h.runs.new] at hp
    exact h.taken_of_owner_created
      (ObjectKind.isSubElement_of_inline (hkind.imp_right And.left)) hp hkey hold

/-! ### What is brought -/

/-- What an entry creates is brought. -/
theorem brought_of_creates (hentry : st.plan.get? id = some entry)
    (hcreates : entry.treatment.creates = true) : m.Brought id :=
  h.runs.brought_of_creates h.new h.distinct h.grounded hentry hcreates

/-- Columns and constraints of a table that is created are brought. -/
theorem brought_of_table_created (hkind : id.kind = .column ∨ id.kind = .constraint)
    (hp : st.plan.new.parent? id = some owner) (hkey : ⟨.create, owner⟩ ∈ m.keys) :
    m.Brought id :=
  h.runs.brought_of_table_created h.new hkind hp hkey

/-- What stands under an object before and afterwards is brought if the object is dropped. -/
theorem brought_of_owner_dropped (hsub : id.kind.isSubElement = true)
    (hpold : st.plan.old.parent? id = some owner) (hpnew : st.plan.new.parent? id = some owner)
    (hkey : ⟨.drop, owner⟩ ∈ m.keys) : m.Brought id := by
  have hnotSub := h.new.not_isSubElement_of_parent? hpnew
  have hrecreates := h.recreates_of_drop hnotSub hkey (h.new.owner_of_parent? hpnew).1
  by_cases hcolumn : id.kind = .column
  · exact h.brought_of_table_created (.inl hcolumn) hpnew
      (h.mem_keys_of_recreates hnotSub hrecreates).2
  · obtain ⟨entry, hentry, -, hcreate⟩ := h.complete.returned hrecreates hpnew hcolumn
    exact h.brought_of_creates hentry
      (by rw [hcreate hsub (Snapshot.contains_of_parent? hpold)]; rfl)

/-- What does not stand under the same parent as before is brought. -/
theorem brought_of_ne (hnew : st.plan.new.contains id = true)
    (hne : st.plan.old.parent? id ≠ st.plan.new.parent? id) : m.Brought id := by
  by_cases hcolumns : id.kind = .column →
      ∀ table, st.plan.new.parent? id = some table → st.plan.old.contains table = true
  · obtain ⟨entry, hentry, hcreate⟩ := h.covers.created hnew hne hcolumns
    exact h.brought_of_creates hentry (by rw [hcreate]; rfl)
  · simp only [not_forall, Bool.not_eq_true] at hcolumns
    obtain ⟨hcolumn, table, hp, htable⟩ := hcolumns
    exact h.brought_of_table_created (.inl hcolumn) hp (h.create_of_fresh
      (h.new.not_isSubElement_of_parent? hp) (h.new.owner_of_parent? hp).1 htable)

/-- What is there afterwards is brought, unless it is there before and nothing takes it. -/
theorem brought (hnew : st.plan.new.contains id = true)
    (htaken : st.plan.old.contains id = true → m.Taken id) : m.Brought id := by
  by_cases hsame : st.plan.old.parent? id = st.plan.new.parent? id
  swap
  · exact h.brought_of_ne hnew hsame
  have hold : st.plan.old.contains id = true := by
    by_contra hfresh
    exact Plan.parent?_ne_of_contains h.new h.old hnew (Bool.eq_false_iff.2 hfresh) hsame.symm
  obtain ⟨dropped, hkey, htakes⟩ := htaken hold
  by_cases heq : id = dropped
  · subst heq
    rcases h.runs.mem_keys.1 hkey with hplanned | hdetached
    · obtain ⟨entry, hentry, hasks⟩ := h.exists_entry_of_planned hplanned
      have hdrops : entry.treatment.drops = true := (Bool.and_eq_true_iff.1 hasks).1
      have hnotDrop := h.treatment_ne_drop hentry hsame
      refine h.brought_of_creates hentry ?_
      cases htreatment : entry.treatment with
      | recreate => rfl
      | drop => exact absurd htreatment hnotDrop
      | create | alter | alterWithDependents | nothing => rw [htreatment] at hdrops; cases hdrops
    · obtain ⟨hsub, owner, hp, howner⟩ := Staging.exists_owner_of_detached hdetached h.old
      exact h.brought_of_owner_dropped hsub hp (hsame ▸ hp) (h.runs.mem_keys.2 (.inl howner))
  · have hp := htakes.parent? h.old h.oldTables heq (h.contains_of_drop hkey) hold
    exact h.brought_of_owner_dropped (htakes.eq_or.resolve_left heq).1 hp (hsame ▸ hp) hkey

/-! ### What is taken before it is brought -/

/-- What is dropped and created is dropped first. -/
theorem drop_precedes_create (hdrop : ⟨.drop, id⟩ ∈ m.keys) (hcreate : ⟨.create, id⟩ ∈ m.keys) :
    m.Precedes ⟨.drop, id⟩ ⟨.create, id⟩ :=
  (h.runs.dropped_before_created hdrop hcreate).precedes (h.runs.nodup_keys h.distinct)

/-- A parent is created before what stands under it. -/
theorem owner_created_first (hp : st.plan.new.parent? id = some owner)
    (howner : ⟨.create, owner⟩ ∈ m.keys) (hcreate : ⟨.create, id⟩ ∈ m.keys) :
    m.Precedes ⟨.create, owner⟩ ⟨.create, id⟩ :=
  (h.runs.owner_created_first h.new hp howner hcreate).precedes (h.runs.nodup_keys h.distinct)

/-- A relation of some name is created after the drops of all relations of that name. -/
theorem relation_dropped_first {other : ObjectId} (hsub : other.kind.isSubElement = false)
    (hdrop : ⟨.drop, other⟩ ∈ m.keys) (hcreate : ⟨.create, id⟩ ∈ m.keys)
    (hsome : id.relationKey?.isSome = true) (hsame : other.relationKey? = id.relationKey?) :
    m.Precedes ⟨.drop, other⟩ ⟨.create, id⟩ := by
  obtain ⟨step, hstep, hkey, -⟩ := h.runs.exists_statement hcreate
  obtain ⟨dropping, hdropping, hdropKey⟩ := List.mem_map.1 (h.runs.mem_planned hsub hdrop)
  refine (h.runs.before_create hstep hkey (by simp [hkey]) hdrop (List.mem_append_right _
    (List.mem_map.2 ⟨dropping, List.mem_filter.2 ⟨hdropping, ?_⟩, hdropKey⟩))).precedes
      (h.runs.nodup_keys h.distinct)
  rw [hkey, hdropKey]
  simp [hsome, hsame]

/-- What stands under a parent is dropped before the parent. -/
theorem owner_dropped_last (hp : st.plan.old.parent? id = some owner)
    (hdrop : ⟨.drop, id⟩ ∈ m.keys) (howner : ⟨.drop, owner⟩ ∈ m.keys) :
    m.Precedes ⟨.drop, id⟩ ⟨.drop, owner⟩ :=
  (h.runs.owner_dropped_last h.old hp hdrop howner).precedes (h.runs.nodup_keys h.distinct)

/-- If a drop takes what stands under a parent afterwards, the parent is created, and that after the
drop. -/
theorem owner_created_after {dropped : ObjectId} (hkey : ⟨.drop, dropped⟩ ∈ m.keys)
    (htakes : Takes dropped id) (hne : id ≠ dropped) (hp : st.plan.new.parent? id = some owner) :
    ⟨.create, owner⟩ ∈ m.keys ∧ m.Precedes ⟨.drop, dropped⟩ ⟨.create, owner⟩ := by
  obtain ⟨hsub, hkind, hpath⟩ := htakes.eq_or.resolve_left hne
  have hownerKind := h.new.table_or_view_of_parent? hsub hp
  have howner := (h.new.owner_of_parent? hp).1
  have hnotSub := h.new.not_isSubElement_of_parent? hp
  have hpaths : dropped.path = owner.path := by rw [← hpath, h.new.containerPath_of_parent? hp]
  have hdropped := h.contains_of_drop hkey
  by_cases heq : dropped = owner
  · subst heq
    have hcreate := (h.mem_keys_of_recreates hnotSub (h.recreates_of_drop hnotSub hkey howner)).2
    exact ⟨hcreate, h.drop_precedes_create hkey hcreate⟩
  · have hfresh : st.plan.old.contains owner = false := by
      by_contra hthere
      rw [Bool.not_eq_false] at hthere
      exact heq (h.oldTables.eq_of_path hdropped hthere hkind hownerKind hpaths)
    have hcreate := h.create_of_fresh hnotSub howner hfresh
    have hrelation : owner.kind.isRelation = true ∧ dropped.kind.isRelation = true ∧
        dropped.kind.isSubElement = false := by
      rcases hkind with hkind | hkind <;> rcases hownerKind with hownerKind | hownerKind <;>
        rw [hkind, hownerKind] <;> exact ⟨rfl, rfl, rfl⟩
    refine ⟨hcreate, h.relation_dropped_first hrelation.2.2 hkey hcreate
      (h.new.relationKey?_isSome howner hrelation.1) ?_⟩
    rw [ObjectId.relationKey?, ObjectId.relationKey?, hrelation.1, hrelation.2.1, hpaths]

/-- Whatever takes an object precedes whatever brings it. -/
theorem precedes {dropped created : ObjectId} (hdrop : ⟨.drop, dropped⟩ ∈ m.keys)
    (htakes : Takes dropped id) (hcreate : ⟨.create, created⟩ ∈ m.keys)
    (hbrings : m.Brings created id) : m.Precedes ⟨.drop, dropped⟩ ⟨.create, created⟩ := by
  rcases hbrings with rfl | ⟨-, hp, hkind⟩
  · by_cases heq : id = dropped
    · subst heq
      exact h.drop_precedes_create hdrop hcreate
    · have hsub := (htakes.eq_or.resolve_left heq).1
      obtain ⟨owner, hp⟩ := h.new.exists_parent? (h.contains_of_create hcreate)
        (by rintro rfl; cases hsub)
      obtain ⟨howner, hprecedes⟩ := h.owner_created_after hdrop htakes heq hp
      exact hprecedes.trans (h.owner_created_first hp howner hcreate)
  · rw [h.runs.new] at hp
    by_cases heq : id = dropped
    · -- The table is recreated, and the object dropped before it.
      subst heq
      have hold := h.contains_of_drop hdrop
      obtain ⟨previous, hpold⟩ := h.old.exists_parent? hold (by
        rintro rfl
        rcases hkind with hkind | ⟨hkind, -⟩ <;> cases hkind)
      obtain rfl := h.old.parent_eq_of_inline h.new (hkind.imp_right And.left) hpold hp
      have hnotSub := h.new.not_isSubElement_of_parent? hp
      have htable := (h.mem_keys_of_recreates hnotSub (h.recreates_of_create hnotSub hcreate
        (h.old.owner_of_parent? hpold).1)).1
      exact (h.owner_dropped_last hpold hdrop htable).trans (h.drop_precedes_create htable hcreate)
    · exact (h.owner_created_after hdrop htakes heq hp).2

end Bridges

end Migration

end SchemaMigration
