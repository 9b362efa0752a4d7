import SchemaMigration.Proofs.Migration.Actions

/-!
# Actions realise treatments

The treatment of an object says which actions it gets (`Treatment.asks`), and it gets each of them
once. Columns, and constraints that are not detached, are the only exception: the drop of their
table drops them too, and its creation stands for their creation as well as for any alteration of
them (`Migration.GoesWithTable`). No action is left over but those of detached constraints, which
follow their table (`Migration.FollowsTable`). So what a migration does can be read off its entries
and its detached constraints alone (`Migration.actions_realise_treatments`).
-/

namespace SchemaMigration

namespace Migration

variable {m : Migration} {st : Staging} {planned : List Step} {kind : StepKind} {id : ObjectId}

/-- The snapshot that actions of some kind take their statements from: the old one for drops. -/
def side (m : Migration) : StepKind → Snapshot
  | .drop => m.old
  | _ => m.new

/-- An object needs no action of its own of some kind: it is a column, or a constraint that is not
detached, and the action of its table goes for it. -/
def GoesWithTable (m : Migration) (kind : StepKind) (id : ObjectId) : Prop :=
  (id.kind = .column ∨ id.kind = .constraint ∧ id ∉ m.detached) ∧
    ∃ table, (m.side kind).parent? id = some table ∧ ⟨kind.ofTable, table⟩ ∈ m.keys

/-- Whether an object goes with its table can be computed. -/
instance (m : Migration) (kind : StepKind) (id : ObjectId) : Decidable (m.GoesWithTable kind id) :=
  decidable_of_iff ((id.kind = .column ∨ id.kind = .constraint ∧ id ∉ m.detached) ∧
      ∃ table ∈ (m.side kind).parent? id, ⟨kind.ofTable, table⟩ ∈ m.keys) Iff.rfl

/-- A migration does with an object what its entry says: each action that the treatment asks for is
taken once, or not at all where the object goes with its table; what is recreated is dropped first;
and what is altered is altered by the statements of the entry. -/
structure Realises (m : Migration) (entry : PlanEntry) : Prop where
  count : ∀ kind, entry.treatment.asks kind = true →
    m.keys.count ⟨kind, entry.id⟩ = if m.GoesWithTable kind entry.id then 0 else 1
  dropped_first : ⟨.drop, entry.id⟩ ∈ m.keys → ⟨.create, entry.id⟩ ∈ m.keys →
    m.RunsBefore ⟨.drop, entry.id⟩ ⟨.create, entry.id⟩
  statements : ∀ action ∈ m.actions, action.key = ⟨.alter, entry.id⟩ →
    action.statements = entry.statements

/-- An action is one that the treatment of its object asks for. -/
def Answers (m : Migration) (key : StepKey) : Prop :=
  (∃ entry ∈ m.entries, entry.id = key.id ∧ entry.treatment.asks key.kind = true) ∧
    ¬ m.GoesWithTable key.kind key.id

/-- An action creates or drops a detached constraint whose table is created or dropped. -/
def FollowsTable (m : Migration) (key : StepKey) : Prop :=
  key.id ∈ m.detached ∧ key.id.kind = .constraint ∧ (key.kind = .create ∨ key.kind = .drop) ∧
    ∃ table, (m.side key.kind).parent? key.id = some table ∧ ⟨key.kind, table⟩ ∈ m.keys

/-! ## What goes with its table -/

section
variable (h : m.Runs st planned)
include h

/-- The sides of a migration are those of its plan. -/
theorem Runs.side_eq (kind : StepKind) : m.side kind = st.side kind := by
  cases kind <;> simp [side, Staging.side, h.old, h.new]

/-- What is there goes with its table if the table spares it the step and it travels. -/
theorem Runs.goesWithTable_iff (hplan : st.plan.Distinct) (hside : (st.side kind).WellFormed)
    (hid : (st.side kind).contains id = true) :
    m.GoesWithTable kind id ↔ st.spared id kind = true ∧ st.travels id = true := by
  rw [GoesWithTable, Staging.spared_iff hside hid, h.travels_iff, h.side_eq, and_comm]
  refine and_congr_left fun hkind => ?_
  have hsub := ObjectKind.isSubElement_of_inline (hkind.imp_right And.left)
  rw [and_iff_right hsub]
  refine exists_congr fun table => and_congr_right fun hp => ?_
  exact h.mem_keys_iff_of_not_isSubElement hplan (hside.not_isSubElement_of_parent? hp)

/-- An entry has a step unless its object goes with its table. -/
theorem Runs.asks_iff (hplan : st.plan.Distinct) (hside : (st.side kind).WellFormed)
    {entry : PlanEntry} (hid : (st.side kind).contains entry.id = true) :
    st.asks entry kind = true ↔
      entry.treatment.asks kind = true ∧ ¬ m.GoesWithTable kind entry.id := by
  rw [Staging.asks_iff, h.goesWithTable_iff hplan hside hid]

/-- What an alteration does is what its entry lists. -/
theorem Runs.statements_of_alter (hplan : st.plan.Distinct) {entry : PlanEntry}
    (hentry : entry ∈ st.plan.entries) {action : Action} (haction : action ∈ m.actions)
    (hkey : action.key = ⟨.alter, entry.id⟩) : action.statements = entry.statements := by
  obtain ⟨step, hstep, hof⟩ := h.actions action haction
  have hid := (Snapshot.get?_some (Staging.statement?_of_mem_allSteps h.steps hstep)).2
  have hstepKey : step.key = ⟨.alter, entry.id⟩ := (key_of_action? hid hof).symm.trans hkey
  obtain ⟨treatment, -, rfl⟩ := Option.map_eq_some_iff.1 hof
  simp [hstepKey, hplan.get?_of_mem hentry]

end

/-! ## Entries and their actions -/

section
variable {old new : Snapshot} {elements : List Element} {extra : ExtraDependencies} {plan : Plan}
  (h : m.Derives old new elements extra plan st planned)
include h

/-- The snapshots of both sides are well-formed. -/
theorem Derives.wellFormed_side (hold : old.WellFormed) (hnew : new.WellFormed) (kind : StepKind) :
    (st.side kind).WellFormed := by
  cases kind <;> simpa only [Staging.side, h.planOld, h.planNew]

/-- What an entry asks for is about an object that is there. -/
theorem Derives.contains_of_asks {entry : PlanEntry} (hentry : entry ∈ st.plan.entries)
    (hasks : entry.treatment.asks kind = true) : (st.side kind).contains entry.id = true := by
  have hgrounded := h.grounded _ entry (h.distinct.get?_of_mem hentry)
  cases kind with
  | drop => exact hgrounded.old fun heq => by rw [heq] at hasks; cases hasks
  | create | alter => exact hgrounded.new fun heq => by rw [heq] at hasks; cases hasks
  | passThrough => cases hasks

/-- The actions of a migration realise its entries. -/
theorem Derives.realises (hold : old.WellFormed) (hnew : new.WellFormed) {entry : PlanEntry}
    (hentry : entry ∈ m.entries) : m.Realises entry := by
  rw [h.runs.entries] at hentry
  refine ⟨fun kind hasks => ?_, h.runs.dropped_before_created, fun action haction hkey =>
    h.runs.statements_of_alter h.distinct hentry haction hkey⟩
  have hside := h.wellFormed_side hold hnew kind
  have hid := h.contains_of_asks hentry hasks
  have hstep := h.runs.asks_iff h.distinct hside hid
  split
  · next hgoes =>
    -- An action would be that of the entry, or of a constraint that is detached after all.
    refine List.count_eq_zero.2 fun hkey => ?_
    rcases h.runs.mem_keys.1 hkey with hplanned | hdetached
    · obtain ⟨other, hother, heq, hother'⟩ := (Staging.key_mem_planned h.runs.steps).1 hplanned
      obtain rfl := List.inj_on_of_nodup_map h.distinct hother hentry heq
      exact (hstep.1 hother').2 hgoes
    · have hin : entry.id ∈ m.detached := by
        rw [h.runs.detached, ObjectId.mem_sortedSet]
        exact (Staging.key_mem_detachedSteps.1 hdetached).1
      rcases hgoes.1 with hcolumn | ⟨-, hnot⟩
      · rw [h.runs.constraints _ hin] at hcolumn
        cases hcolumn
      · exact hnot hin
  · next hgoes =>
    exact List.count_eq_one_of_mem (h.runs.nodup_keys h.distinct)
      (h.runs.mem_keys_of_asks (h.distinct.get?_of_mem hentry) (hstep.2 ⟨hasks, hgoes⟩))

/-- Every action is one that an entry asks for, or that of a detached constraint with its table. -/
theorem Derives.answers_or_followsTable (hold : old.WellFormed) (hnew : new.WellFormed)
    {key : StepKey} (hkey : key ∈ m.keys) : m.Answers key ∨ m.FollowsTable key := by
  have hside := h.wellFormed_side hold hnew key.kind
  rcases h.runs.mem_keys.1 hkey with hplanned | hdetached
  · obtain ⟨entry, hentry, hid, hasks⟩ := (Staging.key_mem_planned h.runs.steps).1 hplanned
    have hthere := h.contains_of_asks hentry (Staging.asks_iff.1 hasks).1
    obtain ⟨htreatment, hgoes⟩ := (h.runs.asks_iff h.distinct hside hthere).1 hasks
    exact .inl ⟨⟨entry, h.runs.entries ▸ hentry, hid, htreatment⟩, hid ▸ hgoes⟩
  · obtain ⟨hin, hkind, -⟩ := Staging.key_mem_detachedSteps.1 hdetached
    obtain ⟨-, table, hp, htable⟩ := Staging.exists_owner_of_detached hdetached hside
    rw [← ObjectId.mem_sortedSet, ← h.runs.detached] at hin
    exact .inr ⟨hin, h.runs.constraints _ hin, hkind, table, by rwa [h.runs.side_eq],
      h.runs.mem_keys.2 (.inl htable)⟩

/-- What an action alters has an entry that says how. -/
theorem Derives.exists_entry_of_alter (hold : old.WellFormed) (hnew : new.WellFormed)
    {action : Action} (haction : action ∈ m.actions) (hkind : action.kind = .alter) :
    ∃ entry ∈ m.entries, entry.id = action.statement.id ∧ entry.treatment.alters = true ∧
      action.statements = entry.statements := by
  have hkey : action.key ∈ m.keys := List.mem_map_of_mem haction
  have hanswers := (h.answers_or_followsTable hold hnew hkey).resolve_right fun hfollows => by
    rcases hfollows.2.2.1 with heq | heq <;> simp [Action.key, hkind] at heq
  obtain ⟨⟨entry, hentry, hid, hasks⟩, -⟩ := hanswers
  simp only [Action.key, hkind] at hid hasks
  refine ⟨entry, hentry, hid, hasks, (h.realises hold hnew hentry).statements action haction ?_⟩
  rw [Action.key, hkind, hid]

end

/-- **Actions realise treatments.** No action is taken twice; each entry has the actions that its
treatment asks for, except where its object goes with its table, and what is recreated is dropped
before it is created; and every other action creates or drops a detached constraint together with
its table. -/
theorem actions_realise_treatments {old new : Snapshot} {elements : List Element}
    {extra : ExtraDependencies} (hold : old.WellFormed) (hnew : new.WellFormed)
    (hm : ofElements old new elements extra = .ok m) :
    m.keys.Nodup ∧ (∀ entry ∈ m.entries, m.Realises entry) ∧
      ∀ key ∈ m.keys, m.Answers key ∨ m.FollowsTable key := by
  obtain ⟨plan, st, planned, h⟩ := exists_derives hold hnew hm
  exact ⟨h.runs.nodup_keys h.distinct, fun _ hentry => h.realises hold hnew hentry,
    fun _ hkey => h.answers_or_followsTable hold hnew hkey⟩

/-! ### A table that is partitioned anew -/

namespace PartitionedTable

/-- The schema. -/
def schema : ObjectId := ⟨.schema, ["a"]⟩

/-- The table. -/
def table : ObjectId := .table "a" "t"

/-- The column of the table. -/
def column : ObjectId := table.child .column "id"

/-- The index of the table. -/
def index : ObjectId := table.child .index "key"

/-- The schema with the table, which has a partitioning, and with the type of its column. -/
def snapshot (partitionBy : Option String) (dataType : String) : Snapshot where
  dialect := .postgres
  statements :=
    [{ id := .database, parent := none, definition := .database, children := [schema] },
     { id := schema, parent := some .database, definition := .schema {}, children := [table] },
     { id := table, parent := some schema, definition := .table { partitionBy },
       children := [column, index] },
     { id := column, parent := some table, definition := .column { dataType } },
     { id := index, parent := some table, definition := .index { columns := ["id"] },
       dependencies := [column] }]
  fingerprints := []

/-- The table is recreated, and its index created with it; the new type of the column comes with
the table, without an alteration. -/
theorem column_altered_with_table :
    ∃ m, ofElements (snapshot none "int") (snapshot (some "RANGE (id)") "bigint")
        [⟨table, .both⟩, ⟨column, .both⟩] {} = .ok m ∧
      m.keys.count ⟨.drop, table⟩ = 1 ∧ m.keys.count ⟨.create, table⟩ = 1 ∧
      m.RunsBefore ⟨.drop, table⟩ ⟨.create, table⟩ ∧ m.keys.count ⟨.create, index⟩ = 1 ∧
      (∃ entry ∈ m.entries, entry.id = column ∧ entry.treatment.alters = true) ∧
      m.keys.count ⟨.alter, column⟩ = 0 := by
  obtain ⟨m, hm, htest⟩ := exists_ok_of_test (p := fun m : Migration =>
      decide ((∃ entry ∈ m.entries, entry.id = table ∧ entry.treatment = .recreate) ∧
        (∃ entry ∈ m.entries, entry.id = index ∧ entry.treatment = .create) ∧
        (∃ entry ∈ m.entries, entry.id = column ∧ entry.treatment.alters = true) ∧
        ¬ m.GoesWithTable .drop table ∧ ¬ m.GoesWithTable .create table ∧
        ¬ m.GoesWithTable .create index ∧ m.GoesWithTable .alter column))
    (show (ofElements (snapshot none "int") (snapshot (some "RANGE (id)") "bigint")
      [⟨table, .both⟩, ⟨column, .both⟩] {}).toOption.any _ = true by decide +kernel)
  obtain ⟨⟨recreated, hrecreated, hrecreatedId, hrecreate⟩,
    ⟨created, hcreated, hcreatedId, hcreate⟩,
    ⟨altered, haltered, halteredId, halters⟩, hdropAlone, hcreateAlone, hindexAlone, htravels⟩ :=
    of_decide_eq_true htest
  obtain ⟨-, hrealises, -⟩ := actions_realise_treatments (by decide +kernel) (by decide +kernel) hm
  have hdrop := (hrealises _ hrecreated).count .drop (by rw [hrecreate]; rfl)
  have hbring := (hrealises _ hrecreated).count .create (by rw [hrecreate]; rfl)
  have hindex := (hrealises _ hcreated).count .create (by rw [hcreate]; rfl)
  have hcolumn := (hrealises _ haltered).count .alter halters
  have hfirst := (hrealises _ hrecreated).dropped_first
  rw [hrecreatedId, if_neg hdropAlone] at hdrop
  rw [hrecreatedId, if_neg hcreateAlone] at hbring
  rw [hcreatedId, if_neg hindexAlone] at hindex
  rw [halteredId, if_pos htravels] at hcolumn
  rw [hrecreatedId] at hfirst
  exact ⟨m, hm, hdrop, hbring, hfirst (List.count_pos_iff.1 (by omega))
    (List.count_pos_iff.1 (by omega)), hindex, ⟨altered, haltered, halteredId, halters⟩, hcolumn⟩

end PartitionedTable

end Migration

end SchemaMigration
