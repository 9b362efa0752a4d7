import SchemaMigration.Proofs.Ddl.Defaults
import SchemaMigration.Proofs.Ddl.MsSql
import SchemaMigration.Proofs.Difference.Columns
import SchemaMigration.Proofs.Migration.Execution
import SchemaMigration.Proofs.Migration.Script
import SchemaMigration.Proofs.Plan.Alteration

/-!
# Default constraints of a migration

The statements of an MS SQL migration lead from the default constraints of the old snapshot to those
of the new one, if no two columns of a schema make the same name for theirs: names are free when
they are used, and constraints that are dropped are there (`Migration.defaults_lead_over`). In
between, a column has the default of the new snapshot if an action has brought or altered it, and
the one of the old snapshot until it is taken (`Migration.HasDefault`).

Names are made by putting an underscore between those of the table and of the column, so tables that
have one in their names can get in the way of each other
(`Migration.DefaultNames.name_taken_twice`).
-/

namespace SchemaMigration

open Ddl.MsSql

/-! ## Columns with defaults -/

namespace Snapshot

variable {snapshot : Snapshot} {id : ObjectId}

/-- The default that a snapshot has for a column. -/
def default? (snapshot : Snapshot) (id : ObjectId) : Option String :=
  (snapshot.get? id).bind (·.default?)

/-- The columns with a default. -/
def withDefault (snapshot : Snapshot) : Finset ObjectId :=
  snapshot.ids.filter fun id => (snapshot.default? id).isSome

/-- The default of what is there is that of its statement. -/
theorem default?_of_get? {s : Statement} (hs : snapshot.get? id = some s) :
    snapshot.default? id = s.default? := by
  rw [default?, hs, Option.bind_some]

/-- What has a default is there. -/
theorem exists_of_default? (h : (snapshot.default? id).isSome = true) :
    ∃ s, snapshot.get? id = some s ∧ s.default?.isSome = true := by
  cases hs : snapshot.get? id with
  | none => simp [default?, hs] at h
  | some s => exact ⟨s, rfl, by rwa [default?_of_get? hs] at h⟩

/-- The columns with a default are those for which there is one. -/
theorem mem_withDefault : id ∈ snapshot.withDefault ↔ (snapshot.default? id).isSome = true := by
  rw [withDefault, Finset.mem_filter, mem_ids]
  refine and_iff_right_of_imp fun h => ?_
  obtain ⟨s, hs, -⟩ := exists_of_default? h
  exact contains_iff.2 ⟨s, hs⟩

/-- Only columns have defaults. -/
theorem Typed.kind_of_default? (h : snapshot.Typed)
    (hdefault : (snapshot.default? id).isSome = true) : id.kind = .column := by
  obtain ⟨s, hs, hsome⟩ := exists_of_default? hdefault
  rw [← (get?_some hs).2]
  exact Statement.kind_of_default?
    (h.kind_eq hs ▸ (congrArg ObjectId.kind (get?_some hs).2).symm) hsome

/-- Nothing but columns has defaults. -/
theorem Typed.default?_eq_none (h : snapshot.Typed) (hkind : id.kind ≠ .column) :
    snapshot.default? id = none :=
  Option.not_isSome_iff_eq_none.1 fun hdefault => hkind (h.kind_of_default? hdefault)

end Snapshot

namespace Migration

/-- What a statement of an action does to default constraints. -/
def defaultsOf (m : Migration) (action : Action) : String → List DefaultChange :=
  match action.kind with
  | .create => createdDefaults action.statement (m.new.children action.statement.id)
  | .drop => droppedDefaults action.statement
  | .alter => alteredDefaults action.statement
  | .passThrough => fun _ => []

/-- What the statements of an action do to default constraints, in order. -/
def defaultChanges (m : Migration) (action : Action) : List DefaultChange :=
  ((m.statementsOf action).toOption.getD []).flatMap (m.defaultsOf action)

/-- What an action does to default constraints follows from its statements. -/
theorem defaultChanges_eq {m : Migration} {action : Action} {statements : List String}
    (h : m.statementsOf action = .ok statements) :
    m.defaultChanges action = statements.flatMap (m.defaultsOf action) := by
  rw [defaultChanges, h]
  rfl

/-- Some of the actions have brought a column in its new form, or have altered it. -/
def Renewed (m : Migration) (done : List StepKey) (id : ObjectId) : Prop :=
  (∃ created, ⟨.create, created⟩ ∈ done ∧ m.Brings created id) ∨ ⟨.alter, id⟩ ∈ done

/-- A column has a default constraint after some actions: that of the new snapshot if it is renewed,
else that of the old one until it is taken. -/
def HasDefault (m : Migration) (done : List StepKey) (id : ObjectId) : Prop :=
  m.Renewed done id ∧ (m.new.default? id).isSome = true ∨
    ¬ m.Renewed done id ∧ (m.old.default? id).isSome = true ∧
      ∀ dropped, ⟨.drop, dropped⟩ ∈ done → ¬ Takes dropped id

/-! ## Columns that are renewed -/

section
variable {m : Migration} {done : List StepKey} {id : ObjectId}

/-- A creation renews what it brings. -/
theorem renewed_append_create {created : ObjectId} :
    m.Renewed (done ++ [⟨.create, created⟩]) id ↔ m.Renewed done id ∨ m.Brings created id := by
  simp only [Renewed, List.mem_append, List.mem_singleton, StepKey.mk.injEq, reduceCtorEq,
    false_and, or_false, true_and]
  constructor
  · rintro (⟨other, hin | rfl, hbrings⟩ | haltered)
    · exact .inl (.inl ⟨other, hin, hbrings⟩)
    · exact .inr hbrings
    · exact .inl (.inr haltered)
  · rintro ((⟨other, hin, hbrings⟩ | haltered) | hbrings)
    · exact .inl ⟨other, .inl hin, hbrings⟩
    · exact .inr haltered
    · exact .inl ⟨created, .inr rfl, hbrings⟩

/-- A drop renews nothing. -/
theorem renewed_append_drop {dropped : ObjectId} :
    m.Renewed (done ++ [⟨.drop, dropped⟩]) id ↔ m.Renewed done id := by
  simp [Renewed]

/-- An alteration renews its object. -/
theorem renewed_append_alter {altered : ObjectId} :
    m.Renewed (done ++ [⟨.alter, altered⟩]) id ↔ m.Renewed done id ∨ id = altered := by
  simp [Renewed, or_assoc]

end

namespace Bridges

variable {m : Migration} {st : Staging} {planned : List Step} {extra : List DependencyPair}
  {id : ObjectId} {done rest : List StepKey} (h : m.Bridges st planned extra)
include h

/-- What has a default constraint is there. -/
theorem present_of_hasDefault (hdone : m.keys = done ++ rest) (hdefault : m.HasDefault done id) :
    m.Present done id := by
  rcases hdefault with ⟨hbrought | haltered, -⟩ | ⟨-, hold, hkept⟩
  · exact .inl hbrought
  · exact h.present_of_alter (hdone ▸ List.mem_append_left _ haltered) hdone
  · obtain ⟨s, hs, -⟩ := Snapshot.exists_of_default? hold
    exact .inr ⟨Snapshot.contains_iff.2 ⟨s, hs⟩, hkept⟩

/-- What is altered is not brought. -/
theorem not_brought_of_alter (hkey : ⟨.alter, id⟩ ∈ m.keys) : ¬ m.Brought id := fun hbrought =>
  h.not_taken_of_alter hkey (h.taken_of_brought hbrought (h.contains_of_alter hkey))

/-- What a drop takes is not renewed before. -/
theorem not_renewed_of_takes {dropped : ObjectId}
    (hkeys : m.keys = done ++ ⟨.drop, dropped⟩ :: rest)
    (htakes : Takes dropped id) : ¬ m.Renewed done id := by
  have hkey := mem_keys_of_split hkeys
  rintro (⟨created, hin, hbrings⟩ | haltered)
  · have hcreated : ⟨.create, created⟩ ∈ m.keys := hkeys ▸ List.mem_append_left _ hin
    exact h.not_mem_done_of_precedes hkeys (h.precedes hkey htakes hcreated hbrings) hin
  · exact h.not_taken_of_alter (hkeys ▸ List.mem_append_left _ haltered) ⟨dropped, hkey, htakes⟩

/-- What is altered is not renewed before. -/
theorem not_renewed_of_alter (hkeys : m.keys = done ++ ⟨.alter, id⟩ :: rest) :
    ¬ m.Renewed done id := by
  rintro (⟨created, hin, hbrings⟩ | haltered)
  · exact h.not_brought_of_alter (mem_keys_of_split hkeys)
      ⟨created, hkeys ▸ List.mem_append_left _ hin, hbrings⟩
  · exact h.not_mem_done hkeys haltered

/-- A column that is dropped has had the default constraint of the old snapshot. -/
theorem hasDefault_of_drop (hkeys : m.keys = done ++ ⟨.drop, id⟩ :: rest) :
    m.HasDefault done id ↔ (m.old.default? id).isSome = true := by
  have hnot := h.not_renewed_of_takes hkeys (.inl rfl)
  rw [HasDefault, or_iff_right fun hrenewed => hnot hrenewed.1, and_iff_right hnot]
  refine and_iff_left (((h.present_of_drop hkeys).resolve_left fun hbrought => hnot ?_).2)
  exact .inl hbrought

/-- A column that is altered has had the default constraint of the old snapshot. -/
theorem hasDefault_of_alter (hkeys : m.keys = done ++ ⟨.alter, id⟩ :: rest) :
    m.HasDefault done id ↔ (m.old.default? id).isSome = true := by
  have hnot := h.not_renewed_of_alter hkeys
  have hkey := mem_keys_of_split hkeys
  rw [HasDefault, or_iff_right fun hrenewed => hnot hrenewed.1, and_iff_right hnot]
  refine and_iff_left fun dropped hin htakes => h.not_taken_of_alter hkey ⟨dropped, ?_, htakes⟩
  exact hkeys ▸ List.mem_append_left _ hin

/-- A creation adds the default constraints of the columns that it brings. -/
theorem hasDefault_append_create {created : ObjectId}
    (hkeys : m.keys = done ++ ⟨.create, created⟩ :: rest) :
    m.HasDefault (done ++ [⟨.create, created⟩]) id ↔
      m.HasDefault done id ∨ m.Brings created id ∧ (m.new.default? id).isSome = true := by
  have hdrops : ∀ dropped, ⟨.drop, dropped⟩ ∈ done ++ [⟨.create, created⟩] ↔
      ⟨.drop, dropped⟩ ∈ done := by simp
  by_cases hbrings : m.Brings created id
  · have hnot : ¬ m.HasDefault done id := fun hdefault =>
      h.not_present_of_brings hkeys hbrings (h.present_of_hasDefault hkeys hdefault)
    rw [or_iff_right hnot, HasDefault, renewed_append_create]
    simp [hbrings]
  · simp only [HasDefault, renewed_append_create, hdrops, hbrings, or_false, false_and]

/-- A drop takes default constraints with their columns. -/
theorem hasDefault_append_drop {dropped : ObjectId}
    (hkeys : m.keys = done ++ ⟨.drop, dropped⟩ :: rest) :
    m.HasDefault (done ++ [⟨.drop, dropped⟩]) id ↔ m.HasDefault done id ∧ ¬ Takes dropped id := by
  by_cases htakes : Takes dropped id
  · have hnot := h.not_renewed_of_takes hkeys htakes
    rw [HasDefault, renewed_append_drop]
    simp only [hnot, false_and, false_or, htakes, not_true, and_false, iff_false]
    exact fun hkept => hkept.2.2 dropped (by simp) htakes
  · simp only [HasDefault, renewed_append_drop, htakes, not_false_eq_true, and_true]
    refine or_congr_right (and_congr_right fun _ => and_congr_right fun _ => ?_)
    constructor
    · exact fun hkept other hin => hkept other (List.mem_append_left _ hin)
    · intro hkept other hin
      rcases List.mem_append.1 hin with hin | hin
      · exact hkept other hin
      · rwa [(StepKey.mk.inj (List.mem_singleton.1 hin)).2]

omit h in
/-- An alteration replaces the default constraint of its column. -/
theorem hasDefault_append_alter {altered : ObjectId} :
    m.HasDefault (done ++ [⟨.alter, altered⟩]) id ↔
      if id = altered then (m.new.default? id).isSome = true else m.HasDefault done id := by
  have hdrops : ∀ dropped, ⟨.drop, dropped⟩ ∈ done ++ [⟨.alter, altered⟩] ↔
      ⟨.drop, dropped⟩ ∈ done := by simp
  split
  · next heq => simp [HasDefault, renewed_append_alter, heq]
  · next hne => simp only [HasDefault, renewed_append_alter, hdrops, hne, or_false]

/-- In the end the columns have a default constraint that have a default in the new snapshot, if
what is not renewed has the same default in both. -/
theorem hasDefault_keys_iff
    (hsame : ∀ {id}, m.old.contains id = true → m.new.contains id = true → ¬ m.Renewed m.keys id →
      m.old.default? id = m.new.default? id) :
    m.HasDefault m.keys id ↔ (m.new.default? id).isSome = true := by
  have hpresent : m.Present m.keys id ↔ m.new.contains id = true := by
    rw [h.present_keys_iff, h.runs.new]
  constructor
  · rintro (⟨-, hnew⟩ | ⟨hnot, hold, hkept⟩)
    · exact hnew
    · obtain ⟨s, hs, -⟩ := Snapshot.exists_of_default? hold
      have hthere := Snapshot.contains_iff.2 ⟨s, hs⟩
      rwa [← hsame hthere (hpresent.1 (.inr ⟨hthere, hkept⟩)) hnot]
  · intro hnew
    by_cases hrenewed : m.Renewed m.keys id
    · exact .inl ⟨hrenewed, hnew⟩
    · obtain ⟨s, hs, -⟩ := Snapshot.exists_of_default? hnew
      have hthere := Snapshot.contains_iff.2 ⟨s, hs⟩
      obtain ⟨hold, hkept⟩ :=
        (hpresent.2 hthere).resolve_left fun hbrought => hrenewed (.inl hbrought)
      exact .inr ⟨hrenewed, by rwa [hsame hold hthere hrenewed], hkept⟩

end Bridges

/-! ## What actions do to default constraints -/

section
variable {m : Migration} {old new : Snapshot} {elements : List Element} {extra : ExtraDependencies}
  {plan : Plan} {st : Staging} {planned : List Step}
  (h : m.Derives old new elements extra plan st planned) (hold : old.WellFormed)
  (hnew : new.WellFormed) (htypedOld : old.Typed) (htypedNew : new.Typed)
  (hdialect : new.dialect = .msSql)
include h

/-- The statement of a drop is the old one, those of other actions are the new ones. -/
theorem Derives.get?_of_action {action : Action} (haction : action ∈ m.actions) :
    (if action.kind = .drop then old else new).get? action.statement.id =
      some action.statement := by
  obtain ⟨-, hs⟩ := h.runs.statement?_of_action haction
  cases hkind : action.kind <;>
    simpa only [Staging.statement?, Action.key, Staging.side, hkind, h.planOld, h.planNew,
      reduceCtorEq, if_true, if_false] using hs

include hold hnew hdialect in
/-- A column is altered by what the dialect does to bring its old statement to the new one. -/
theorem Derives.exists_alteration_of_column {action : Action} (haction : action ∈ m.actions)
    (hkind : action.kind = .alter) (hcolumn : action.statement.kind = .column) :
    ∃ s alteration, old.get? action.statement.id = some s ∧
      Ddl.MsSql.alter s action.statement = .ok alteration ∧
      action.statements = (Decision.ofAlteration alteration).statements := by
  obtain ⟨entry, hentry, hid, halters, hstatements⟩ :=
    h.exists_entry_of_alter hold hnew haction hkind
  have ht := h.get?_of_action haction
  rw [hkind, if_neg (by decide)] at ht
  rcases h.edited.entry_cases h.initial.new h.initial.grounded (h.mem_entries.1 hentry) with
    hfound | ⟨hnot, -⟩ | ⟨-, -, -, sql, hrefresh, -⟩
  · obtain ⟨s, t, alteration, hs, ht', -, halter, hdecision⟩ :=
      Plan.decided_of_ofElements h.selected _ entry hfound halters
    rw [h.initialOld, hid] at hs
    rw [h.initialNew, hid, ht] at ht'
    obtain rfl := Option.some.inj ht'
    rw [h.initialNew, hdialect] at halter
    exact ⟨s, alteration, hs, halter, by rw [hstatements, hdecision]⟩
  · rw [hnot] at halters
    cases halters
  · -- Columns are not refreshed.
    obtain ⟨t, ht', hrefreshes⟩ := Plan.inPlace?_eq_some.1 hrefresh
    rw [h.initialNew, hid, ht] at ht'
    obtain rfl := Option.some.inj ht'
    rw [h.initialNew, hdialect] at hrefreshes
    rcases Ddl.MsSql.kind_of_refresh? hrefreshes with heq | heq | heq | heq <;>
      rw [hcolumn] at heq <;> cases heq

section
variable {action : Action} {statements : List String} (haction : action ∈ m.actions)
  (hstatements : m.statementsOf action = .ok statements)
include hdialect haction hstatements

include htypedNew in
/-- A creation adds the default constraints of the columns that are created with its object. -/
theorem Derives.defaultChanges_of_create (hkind : action.kind = .create) :
    m.defaultChanges action =
      (Ddl.MsSql.withDefault action.statement (new.children action.statement.id)).map .add := by
  have hs := h.get?_of_action haction
  rw [hkind, if_neg (by decide)] at hs
  rw [defaultChanges_eq hstatements]
  simp only [statementsOf, hkind, h.migrationNew, hdialect] at hstatements
  rw [← flatMap_createdDefaults (htypedNew.kind_eq hs) hstatements]
  simp only [defaultsOf, hkind, h.migrationNew]

include htypedOld in
/-- A drop clears a table, or drops the default constraint of a column. -/
theorem Derives.defaultChanges_of_drop (hkind : action.kind = .drop) :
    m.defaultChanges action =
      if action.statement.kind = .table then [.clear action.statement.id]
      else if (old.default? action.statement.id).isSome then [.drop action.statement.id]
      else [] := by
  have hs := h.get?_of_action haction
  rw [hkind, if_pos rfl] at hs
  rw [defaultChanges_eq hstatements]
  simp only [statementsOf, hkind, h.migrationNew, hdialect] at hstatements
  rw [Snapshot.default?_of_get? hs, ← flatMap_droppedDefaults (htypedOld.kind_eq hs) hstatements]
  simp only [defaultsOf, hkind]

include hold hnew htypedOld htypedNew in
/-- An alteration replaces the default constraint of a column, if its default is another one. -/
theorem Derives.defaultChanges_of_alter (hkind : action.kind = .alter) :
    m.defaultChanges action =
      if old.default? action.statement.id = new.default? action.statement.id then []
      else
        (if (old.default? action.statement.id).isSome then [.drop action.statement.id] else []) ++
        if (new.default? action.statement.id).isSome then [.add action.statement.id] else [] := by
  have ht := h.get?_of_action haction
  rw [hkind, if_neg (by decide)] at ht
  rw [defaultChanges_eq hstatements]
  simp only [statementsOf, hkind, Except.ok.injEq] at hstatements
  rw [← hstatements, defaultsOf, hkind]
  by_cases hcolumn : action.statement.kind = .column
  · obtain ⟨s, alteration, hs, halter, hlists⟩ :=
      h.exists_alteration_of_column hold hnew hdialect haction hkind hcolumn
    have hid := congrArg ObjectId.kind (Snapshot.get?_some hs).2
    rw [hlists, Snapshot.default?_of_get? hs, Snapshot.default?_of_get? ht]
    exact flatMap_alteredDefaults ((htypedOld.kind_eq hs).trans hid.symm) (htypedNew.kind_eq ht) hid
      halter
  · rw [htypedOld.default?_eq_none hcolumn, htypedNew.default?_eq_none hcolumn, if_pos rfl,
      List.flatMap_eq_nil_iff]
    exact fun sql _ => if_pos hcolumn

include htypedOld htypedNew in
/-- Every change of default constraints is written down by a statement. -/
theorem Derives.writtenIn_of_defaultsOf {sql : String} (hsql : sql ∈ statements)
    {change : DefaultChange} (hchange : change ∈ m.defaultsOf action sql) :
    change.WrittenIn sql := by
  have hs := h.get?_of_action haction
  cases hkind : action.kind <;>
    simp only [statementsOf, defaultsOf, hkind, h.migrationNew, hdialect, reduceCtorEq, if_true,
      if_false] at hs hstatements hchange
  case create => exact writtenIn_of_createdDefaults (htypedNew.kind_eq hs) hstatements hsql hchange
  case drop => exact writtenIn_of_droppedDefaults (htypedOld.kind_eq hs) hstatements hsql hchange
  case alter => exact writtenIn_of_alteredDefaults hchange
  case passThrough => cases hchange

end

include hold hnew htypedOld htypedNew hdialect in
/-- What the migration of two snapshots does not renew has the same default in both. -/
theorem Derives.default?_eq {tree : Difference} (htree : Difference.ofSnapshots old new = .ok tree)
    (helements : elements = tree.elements old new {}) (hprints : old.PrintsFaithful new)
    (hbridges : m.Bridges st planned extra.old) {id : ObjectId} (hthere : old.contains id = true)
    (hthere' : new.contains id = true) (hnot : ¬ m.Renewed m.keys id) :
    old.default? id = new.default? id := by
  by_cases hcolumn : id.kind = .column
  swap
  · rw [htypedOld.default?_eq_none hcolumn, htypedNew.default?_eq_none hcolumn]
  obtain ⟨s, hs⟩ := Snapshot.contains_iff.1 hthere
  obtain ⟨t, ht⟩ := Snapshot.contains_iff.1 hthere'
  rw [Snapshot.default?_of_get? hs, Snapshot.default?_of_get? ht]
  by_cases hcontent : s.content = t.content
  · rw [Statement.default?, Statement.default?, (Prod.mk.inj hcontent).1]
  have hmem : ⟨id, .both⟩ ∈ elements :=
    helements ▸ Difference.changed_mem_elements hold hnew hprints htree hcolumn hs ht hcontent
  rcases Plan.contains_or_nothing_of_mem h.selected hmem with
    hcontains | ⟨_, _, decision, hstatements, hdecision, hnothing⟩
  · -- What is selected stays in the plan.
    obtain ⟨entry, hentry⟩ :=
      Plan.contains_iff.1 ((h.edited.advances h.initial.new).contains hcontains)
    have hne : id ≠ .database := by rintro rfl; cases hcolumn
    obtain ⟨table, hp⟩ := hold.exists_parent? hthere hne
    obtain ⟨table', hp'⟩ := hnew.exists_parent? hthere' hne
    obtain rfl := hold.parent_eq_of_inline hnew (.inl hcolumn) hp hp'
    exact absurd (hbridges.brought_or_altered hentry hcolumn (h.planNew.symm ▸ hthere')
      (by rw [h.planOld, h.planNew, hp, hp'])) hnot
  · obtain ⟨⟨rfl, -⟩, rfl, -⟩ := Element.statements_of_both rfl hstatements
    have hkindOld := congrArg ObjectId.kind (Snapshot.get?_some hs).2
    have hkindNew := congrArg ObjectId.kind (Snapshot.get?_some ht).2
    dsimp only at hdecision
    rw [hdialect, hs, ht] at hdecision
    exact default?_eq_of_nothing ((htypedOld.kind_eq hs).trans hkindOld.symm)
      ((htypedNew.kind_eq ht).trans hkindNew.symm) (hkindOld.trans hkindNew.symm) hdecision hnothing

end

/-! ## Runs of changes -/

/-- The columns that come with a new object are those that its creation brings. -/
theorem mem_withDefault_iff {m : Migration} {id other : ObjectId} {s : Statement}
    (hnew : m.new.WellFormed) (htyped : m.new.Typed) (hs : m.new.get? id = some s) :
    other ∈ Ddl.MsSql.withDefault s (m.new.children id) ↔
      m.Brings id other ∧ (m.new.default? other).isSome = true := by
  obtain ⟨-, rfl⟩ := Snapshot.get?_some hs
  simp only [Ddl.MsSql.withDefault, List.mem_map, List.mem_filter]
  constructor
  · rintro ⟨t, ⟨ht, hdefault⟩, rfl⟩
    split at ht
    · next htable =>
      obtain ⟨hget, hparent⟩ := hnew.mem_children.1 ht
      rw [Snapshot.default?_of_get? hget]
      exact ⟨.inr ⟨htable, Snapshot.parent?_eq_some.2 ⟨t, hget, hparent⟩,
        .inl (Statement.kind_of_default? (htyped.kind_eq hget) hdefault)⟩, hdefault⟩
    · obtain rfl := List.mem_singleton.1 ht
      rw [Snapshot.default?_of_get? hs]
      exact ⟨.inl rfl, hdefault⟩
  · rintro ⟨rfl | ⟨htable, hp, -⟩, hdefault⟩
    · rw [Snapshot.default?_of_get? hs] at hdefault
      refine ⟨s, ⟨?_, hdefault⟩, rfl⟩
      rw [if_neg, List.mem_singleton]
      rw [Statement.kind_of_default? (htyped.kind_eq hs) hdefault]
      decide
    · obtain ⟨t, ht, rfl⟩ := hnew.exists_mem_children.2 hp
      rw [Snapshot.default?_of_get? (hnew.mem_children.1 ht).1] at hdefault
      exact ⟨t, ⟨by rwa [if_pos (show s.kind = .table from htable)], hdefault⟩, rfl⟩

/-- No column comes twice with a new object. -/
theorem nodup_withDefault {m : Migration} {id : ObjectId} (hnew : m.new.WellFormed)
    (s : Statement) :
    (Ddl.MsSql.withDefault s (m.new.children id)).Nodup := by
  rw [Ddl.MsSql.withDefault]
  split
  · exact (hnew.nodup_children id).sublist (List.filter_sublist.map _)
  · exact (List.nodup_singleton s.id).sublist (List.filter_sublist.map _)

section
variable {m : Migration} {done rest : List StepKey} {id : ObjectId} {state : Finset ObjectId}
  (hstate : ∀ id, id ∈ state ↔ m.HasDefault done id)

/-- Only columns have default constraints. -/
theorem HasDefault.kind_eq (h : m.HasDefault done id) (htypedOld : m.old.Typed)
    (htypedNew : m.new.Typed) : id.kind = .column :=
  h.elim (fun hnew => htypedNew.kind_of_default? hnew.2)
    fun hold => htypedOld.kind_of_default? hold.2.1

include hstate

/-- What has a default constraint has a default in one of the snapshots. -/
theorem subset_withDefault : state ⊆ m.old.withDefault ∪ m.new.withDefault := by
  intro id hid
  rw [Finset.mem_union, Snapshot.mem_withDefault, Snapshot.mem_withDefault]
  exact ((hstate id).1 hid).elim (fun hnew => .inr hnew.2) fun hold => .inl hold.2.1

variable {st : Staging} {planned : List Step} {extra : List DependencyPair}
  (h : m.Bridges st planned extra) (htypedOld : m.old.Typed) (htypedNew : m.new.Typed)
include h

include htypedNew in
/-- The columns that come with a new object get their default constraints. -/
theorem run_of_create (hapart : NamesApart (m.old.withDefault ∪ m.new.withDefault))
    (hkeys : m.keys = done ++ ⟨.create, id⟩ :: rest) {s : Statement} (hs : m.new.get? id = some s) :
    ∃ next, DefaultChange.run ((Ddl.MsSql.withDefault s (m.new.children id)).map .add) state =
        some next ∧ ∀ other, other ∈ next ↔ m.HasDefault (done ++ [⟨.create, id⟩]) other := by
  have hnew : m.new.WellFormed := h.runs.new ▸ h.new
  have hadded : ∀ other, other ∈ Ddl.MsSql.withDefault s (m.new.children id) ↔
      m.Brings id other ∧ (m.new.default? other).isSome = true := fun other =>
    mem_withDefault_iff hnew htypedNew hs
  refine ⟨_, DefaultChange.run_adds (nodup_withDefault hnew s) (fun other hother hin => ?_)
    (hapart.mono ?_), fun other => ?_⟩
  · exact h.not_present_of_brings hkeys ((hadded other).1 hother).1
      (h.present_of_hasDefault hkeys ((hstate other).1 hin))
  · refine Finset.union_subset (subset_withDefault hstate) fun other hother => ?_
    rw [List.mem_toFinset, hadded] at hother
    exact Finset.mem_union_right _ (Snapshot.mem_withDefault.2 hother.2)
  · rw [Finset.mem_union, List.mem_toFinset, hadded, hstate, h.hasDefault_append_create hkeys]

include htypedOld htypedNew in
/-- The columns that go with an object lose their default constraints. -/
theorem run_of_drop (hkeys : m.keys = done ++ ⟨.drop, id⟩ :: rest) :
    ∃ next, DefaultChange.run (if id.kind = .table then [.clear id]
        else if (m.old.default? id).isSome then [.drop id] else []) state = some next ∧
      ∀ other, other ∈ next ↔ m.HasDefault (done ++ [⟨.drop, id⟩]) other := by
  have hcolumn : ∀ {other}, m.HasDefault done other → other.kind = .column := fun hdefault =>
    hdefault.kind_eq htypedOld htypedNew
  split
  · next htable =>
    refine ⟨_, rfl, fun other => ?_⟩
    rw [DefaultChange.effect, Finset.mem_filter, hstate, h.hasDefault_append_drop hkeys]
    refine and_congr_right fun hdefault => not_congr ?_
    have hkind := hcolumn hdefault
    constructor
    · exact fun hpath => .inr ⟨by rw [hkind]; rfl, by rw [hkind, htable]; rfl, hpath⟩
    · rintro (rfl | ⟨-, -, hpath⟩)
      · rw [hkind] at htable
        cases htable
      · exact hpath
  · next htable =>
    -- Nothing but tables has columns that go with it.
    have htakes : ∀ {other}, m.HasDefault done other → (Takes id other ↔ other = id) := by
      intro other hdefault
      refine ⟨fun htakes => htakes.resolve_right ?_, .inl⟩
      rintro ⟨-, hunder, -⟩
      rw [hcolumn hdefault] at hunder
      exact htable (ObjectKind.eq_table_of_canBeUnder (.inl rfl) hunder)
    have hhas := h.hasDefault_of_drop hkeys
    split
    · next hsome =>
      refine ⟨state.erase id, if_pos ((hstate id).2 (hhas.2 hsome)), fun other => ?_⟩
      rw [Finset.mem_erase, hstate, h.hasDefault_append_drop hkeys, and_comm]
      exact and_congr_right fun hdefault => not_congr (htakes hdefault).symm
    · next hnone =>
      refine ⟨state, rfl, fun other => ?_⟩
      rw [hstate, h.hasDefault_append_drop hkeys]
      refine ⟨fun hdefault => ⟨hdefault, fun htaken => hnone (hhas.1 ?_)⟩, And.left⟩
      exact (htakes hdefault).1 htaken ▸ hdefault

/-- A column that is altered has its default constraint replaced. -/
theorem run_of_alter (hapart : NamesApart (m.old.withDefault ∪ m.new.withDefault))
    (hkeys : m.keys = done ++ ⟨.alter, id⟩ :: rest) :
    ∃ next, DefaultChange.run (if m.old.default? id = m.new.default? id then []
        else (if (m.old.default? id).isSome then [.drop id] else []) ++
          if (m.new.default? id).isSome then [.add id] else []) state = some next ∧
      ∀ other, other ∈ next ↔ m.HasDefault (done ++ [⟨.alter, id⟩]) other := by
  have hhas := (hstate id).trans (h.hasDefault_of_alter hkeys)
  split
  · next heq =>
    refine ⟨state, rfl, fun other => ?_⟩
    rw [Bridges.hasDefault_append_alter]
    split
    · next hid => rw [hid, hhas, heq]
    · exact hstate other
  -- First the old constraint goes, if there is one, then the new one comes.
  have hgone : ∃ middle, DefaultChange.run (if (m.old.default? id).isSome then [.drop id] else [])
      state = some middle ∧ middle = state.erase id := by
    split
    · next hsome => exact ⟨_, if_pos (hhas.2 hsome), rfl⟩
    · next hnone => exact ⟨state, rfl, (Finset.erase_eq_of_notMem (mt hhas.1 hnone)).symm⟩
  obtain ⟨_, hmiddle, rfl⟩ := hgone
  rw [DefaultChange.run_append, hmiddle, Option.bind_some]
  split
  · next hsome =>
    refine ⟨insert id (state.erase id), if_pos fun other hother hschema hname => ?_,
      fun other => ?_⟩
    · obtain ⟨hne, hin⟩ := Finset.mem_erase.1 hother
      exact hne (hapart other (subset_withDefault hstate hin) id
        (Finset.mem_union_right _ (Snapshot.mem_withDefault.2 hsome)) hschema hname)
    · rw [Finset.mem_insert, Finset.mem_erase, hstate, Bridges.hasDefault_append_alter]
      split
      · next hid => simp [hid, hsome]
      · next hid => simp [hid]
  · next hnone =>
    refine ⟨state.erase id, rfl, fun other => ?_⟩
    rw [Finset.mem_erase, hstate, Bridges.hasDefault_append_alter]
    split
    · next hid => simp [hid, hnone]
    · next hid => simp [hid]

end

section
variable {m : Migration} {old new : Snapshot} {elements : List Element} {extra : ExtraDependencies}
  {plan : Plan} {st : Staging} {planned : List Step}
  (h : m.Derives old new elements extra plan st planned)
  (hbridges : m.Bridges st planned extra.old) (hold : old.WellFormed) (hnew : new.WellFormed)
  (htypedOld : old.Typed) (htypedNew : new.Typed) (hdialect : new.dialect = .msSql)
  (hapart : NamesApart (old.withDefault ∪ new.withDefault))
include h hbridges hold hnew htypedOld htypedNew hdialect hapart

/-- The statements of an action run through where the columns have default constraints that have one
after the actions before it, and leave those that have one after it as well. -/
theorem run_of_action {action : Action} (haction : action ∈ m.actions) {statements : List String}
    (hstatements : m.statementsOf action = .ok statements) {done rest : List StepKey}
    (hkeys : m.keys = done ++ action.key :: rest) {state : Finset ObjectId}
    (hstate : ∀ id, id ∈ state ↔ m.HasDefault done id) :
    ∃ next, DefaultChange.run (m.defaultChanges action) state = some next ∧
      ∀ id, id ∈ next ↔ m.HasDefault (done ++ [action.key]) id := by
  have hs := h.get?_of_action haction
  obtain rfl := h.migrationOld
  obtain rfl := h.migrationNew
  cases hkind : action.kind with
  | create =>
    rw [hkind, if_neg (by decide)] at hs
    rw [Action.key, hkind] at hkeys ⊢
    rw [h.defaultChanges_of_create htypedNew hdialect haction hstatements hkind]
    exact run_of_create hstate hbridges htypedNew hapart hkeys hs
  | drop =>
    rw [Action.key, hkind] at hkeys ⊢
    rw [h.defaultChanges_of_drop htypedOld hdialect haction hstatements hkind]
    exact run_of_drop hstate hbridges htypedOld htypedNew hkeys
  | alter =>
    rw [Action.key, hkind] at hkeys ⊢
    rw [h.defaultChanges_of_alter hold hnew htypedOld htypedNew hdialect haction hstatements hkind]
    exact run_of_alter hstate hbridges hapart hkeys
  | passThrough =>
    have hkey := (h.runs.statement?_of_action haction).1
    exact absurd hkind (Staging.kind_ne_passThrough h.runs.steps (h.runs.keys.mem_iff.1 hkey))

/-- The statements of the actions that are left run through, from the default constraints that there
are after those before them. -/
theorem run_rest {body : List String} (hbody : m.statements = .ok body) (before after : List Action)
    (hactions : m.actions = before ++ after) {state : Finset ObjectId}
    (hstate : ∀ id, id ∈ state ↔ m.HasDefault (before.map (·.key)) id) :
    ∃ final, DefaultChange.run (after.flatMap m.defaultChanges) state = some final ∧
      ∀ id, id ∈ final ↔ m.HasDefault m.keys id := by
  induction after generalizing before state with
  | nil =>
    refine ⟨state, rfl, fun id => ?_⟩
    rw [hstate, keys, hactions, List.append_nil]
  | cons action after ih =>
    have hkeys : m.keys = before.map (·.key) ++ action.key :: after.map (·.key) := by
      rw [keys, hactions, List.map_append, List.map_cons]
    have haction : action ∈ m.actions := hactions ▸ List.mem_append_right _ List.mem_cons_self
    obtain ⟨statements, hstatements⟩ := exists_statementsOf_of_statements hbody haction
    obtain ⟨next, hrun, hnext⟩ := run_of_action h hbridges hold hnew htypedOld htypedNew hdialect
      hapart haction hstatements hkeys hstate
    rw [List.flatMap_cons, DefaultChange.run_append, hrun, Option.bind_some]
    refine ih (before ++ [action]) (by rw [hactions, List.append_assoc]; rfl) ?_
    rw [List.map_append]
    exact hnext

end

/-- **Default constraints stay consistent.** If no two columns that have a default before or
afterwards have constraints of one name in one schema, the statements of a migration run through,
from the default constraints of the old snapshot to those of the new one. Between any two changes
names are apart, new ones are free, and what is dropped is there; and each change is what a
statement says. -/
theorem defaults_lead_over {m : Migration} {old new : Snapshot} {extra : ExtraDependencies}
    {body : List String} (hold : old.WellFormed) (hnew : new.WellFormed) (htypedOld : old.Typed)
    (htypedNew : new.Typed) (holdTables : old.TablesApart) (hnewTables : new.TablesApart)
    (hprints : old.PrintsFaithful new) (hdialect : new.dialect = .msSql)
    (hm : ofSnapshots old new {} extra = .ok m) (hbody : m.statements = .ok body)
    (hapart : NamesApart (old.withDefault ∪ new.withDefault)) :
    DefaultChange.run (m.actions.flatMap m.defaultChanges) old.withDefault = some new.withDefault ∧
      (∀ done change rest, m.actions.flatMap m.defaultChanges = done ++ change :: rest →
        ∃ state, DefaultChange.run done old.withDefault = some state ∧ NamesApart state ∧
          change.Admits state) ∧
      ∀ action ∈ m.actions, ∀ statements, m.statementsOf action = .ok statements →
        ∀ sql ∈ statements, ∀ change ∈ m.defaultsOf action sql, change.WrittenIn sql := by
  obtain ⟨tree, htree, helements⟩ := bind_eq_ok.1 hm
  obtain ⟨plan, st, planned, h⟩ := exists_derives hold hnew helements
  have hbridges := h.bridges hold hnew holdTables hnewTables
    (Difference.tells_of_ofSnapshots hold hnew holdTables hnewTables
      (hprints.printsTell hold hnew holdTables hnewTables) htree)
  have hstart : ∀ id, id ∈ old.withDefault ↔
      m.HasDefault (([] : List Action).map (·.key)) id := by
    intro id
    rw [Snapshot.mem_withDefault, HasDefault, h.migrationOld]
    simp [Renewed]
  obtain ⟨final, hfinal, hend⟩ := run_rest h hbridges hold hnew htypedOld htypedNew hdialect hapart
    hbody [] m.actions rfl hstart
  have hrun : DefaultChange.run (m.actions.flatMap m.defaultChanges) old.withDefault =
      some new.withDefault := by
    rw [hfinal]
    congr 1
    ext id
    rw [hend, hbridges.hasDefault_keys_iff, Snapshot.mem_withDefault, h.migrationNew]
    rw [h.migrationOld, h.migrationNew]
    exact h.default?_eq hold hnew htypedOld htypedNew hdialect htree rfl hprints hbridges
  refine ⟨hrun, fun done change rest hchanges => ?_, fun action haction statements hstatements sql
    hsql change hchange => ?_⟩
  · exact DefaultChange.namesApart_and_admits_of_run (hapart.mono Finset.subset_union_left)
      (hchanges ▸ hrun)
  · exact h.writtenIn_of_defaultsOf htypedOld htypedNew hdialect haction hstatements hsql hchange

/-! ### Names of default constraints -/

namespace DefaultNames

/-- The schema. -/
def schema : ObjectId := ⟨.schema, ["dbo"]⟩

/-- A table with a column that has a default. -/
def table (name column default : String) : List Statement :=
  let id := ObjectId.table "dbo" name
  [{ id, parent := some schema, definition := .table {}, children := [id.child .column column] },
   { id := id.child .column column, parent := some id,
     definition := .column { dataType := "int", default := some default } }]

/-- The schema with some tables, each with a column that has a default. All fingerprints are made of
one digest. -/
def snapshot (tables : List (String × String × String)) (digest : Digest) : Snapshot :=
  let statements :=
    [{ id := .database, parent := none, definition := .database, children := [schema] },
     { id := schema, parent := some .database, definition := .schema {},
       children := tables.map fun (name, _) => .table "dbo" name }] ++
    tables.flatMap fun (name, column, default) => table name column default
  { dialect := .msSql, statements
    fingerprints := statements.map fun s => (s.id, ⟨digest, digest, digest⟩) }

/-- Two tables. -/
def before : Snapshot := snapshot [("t", "x", "0"), ("u", "y", "0")] ⟨[0]⟩

/-- One of the tables has another default, the other table is gone, and there is a new one. -/
def after : Snapshot := snapshot [("t", "x", "1"), ("v", "z", "2")] ⟨[1]⟩

/-- A default constraint goes with its table, one comes with a table, and one is replaced. -/
theorem default_replaced : ∃ m body, ofSnapshots before after {} {} = .ok m ∧
    m.statements = .ok body ∧
    m.actions.flatMap m.defaultChanges =
      [.clear (.table "dbo" "u"), .add ⟨.column, ["dbo", "v", "z"]⟩,
        .drop ⟨.column, ["dbo", "t", "x"]⟩, .add ⟨.column, ["dbo", "t", "x"]⟩] ∧
    DefaultChange.run (m.actions.flatMap m.defaultChanges) before.withDefault =
      some after.withDefault := by
  obtain ⟨m, hm, htest⟩ := exists_ok_of_test (p := fun m : Migration =>
      m.statements.toOption.any fun _ => decide (m.actions.flatMap m.defaultChanges =
        [.clear (.table "dbo" "u"), .add ⟨.column, ["dbo", "v", "z"]⟩,
          .drop ⟨.column, ["dbo", "t", "x"]⟩, .add ⟨.column, ["dbo", "t", "x"]⟩]))
    (show (ofSnapshots before after {} {}).toOption.any _ = true by decide +kernel)
  obtain ⟨body, hbody, hchanges⟩ := exists_ok_of_test htest
  exact ⟨m, body, hm, hbody, of_decide_eq_true hchanges,
    (defaults_lead_over (by decide +kernel) (by decide +kernel) (by decide +kernel)
      (by decide +kernel) (by decide +kernel) (by decide +kernel)
      (Snapshot.printsFaithful_of_ne (by decide +kernel)) rfl hm hbody (by decide +kernel)).1⟩

/-- No tables. -/
def empty : Snapshot := snapshot [] ⟨[0]⟩

/-- Two tables that make the same name for the constraints of their columns. -/
def clashing : Snapshot := snapshot [("a_b", "c", "0"), ("a", "b_c", "1")] ⟨[1]⟩

/-- Both tables are created, with default constraints of one name. -/
theorem name_taken_twice :
    (empty.WellFormed ∧ clashing.WellFormed) ∧ (empty.Typed ∧ clashing.Typed) ∧
      (empty.TablesApart ∧ clashing.TablesApart) ∧ empty.PrintsFaithful clashing ∧
      ∃ m, ofSnapshots empty clashing {} {} = .ok m ∧
        m.statements = .ok
          ["CREATE TABLE [dbo].[a_b] (\n\t[c] int NULL CONSTRAINT [DF_a_b_c] DEFAULT 0\n)",
            "CREATE TABLE [dbo].[a] (\n\t[b_c] int NULL CONSTRAINT [DF_a_b_c] DEFAULT 1\n)"] ∧
        m.actions.flatMap m.defaultChanges = [.add ⟨.column, ["dbo", "a_b", "c"]⟩,
          .add ⟨.column, ["dbo", "a", "b_c"]⟩] ∧
        DefaultChange.run (m.actions.flatMap m.defaultChanges) empty.withDefault = none := by
  refine ⟨by decide +kernel, by decide +kernel, by decide +kernel,
    Snapshot.printsFaithful_of_ne (by decide +kernel), ?_⟩
  obtain ⟨m, hm, htest⟩ := exists_ok_of_test (p := fun m : Migration =>
      decide (m.statements.toOption = some
        ["CREATE TABLE [dbo].[a_b] (\n\t[c] int NULL CONSTRAINT [DF_a_b_c] DEFAULT 0\n)",
          "CREATE TABLE [dbo].[a] (\n\t[b_c] int NULL CONSTRAINT [DF_a_b_c] DEFAULT 1\n)"] ∧
        m.actions.flatMap m.defaultChanges = [.add ⟨.column, ["dbo", "a_b", "c"]⟩,
          .add ⟨.column, ["dbo", "a", "b_c"]⟩]))
    (show (ofSnapshots empty clashing {} {}).toOption.any _ = true by decide +kernel)
  obtain ⟨hbody, hchanges⟩ := of_decide_eq_true htest
  refine ⟨m, hm, ?_, hchanges, by rw [hchanges]; decide +kernel⟩
  cases hstatements : m.statements <;> rw [hstatements] at hbody
  · cases hbody
  · exact congrArg _ (Option.some.inj hbody)

end DefaultNames

end Migration

end SchemaMigration
