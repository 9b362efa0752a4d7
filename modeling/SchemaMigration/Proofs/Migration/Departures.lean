import SchemaMigration.Proofs.Migration.RemovalOrder

/-!
# What goes away with its table

An index, a trigger or a policy that has no drop of its own goes away with the drop of the table or
view that it stands under (`Migration.departure?`). Two drops are put in order if something that the
first one removes needs something that the second one removes (`Migration.Orders`), and what goes
away in that way does not count as removed: the drop of a table takes over what its columns and its
constraints need, but not what its indexes, triggers and policies need. Exactly these are the orders
of two drops that the steps of a plan ask for (`Migration.Derives.orders_iff`). So the order of
removals extends to objects that go away with their table only as far as other objects ask for it
(`Migration.departure_order`).
-/

namespace SchemaMigration

namespace Migration

variable {m : Migration} {id : ObjectId} {key : StepKey}

/-- An index, a trigger or a policy has no drop of its own. -/
def Vanishes (m : Migration) (id : ObjectId) : Prop :=
  (id.kind = .index ∨ id.kind = .trigger ∨ id.kind = .policy) ∧ ⟨.drop, id⟩ ∉ m.keys

/-- Whether an object vanishes can be computed. -/
instance (m : Migration) (id : ObjectId) : Decidable (m.Vanishes id) :=
  inferInstanceAs (Decidable (_ ∧ _))

/-- The action with which an object goes away: its own drop, or for an index, a trigger or a policy
without one the drop of the table or view that it stands under in the old snapshot. -/
def departure? (m : Migration) (id : ObjectId) : Option StepKey :=
  if m.Vanishes id then ((m.old.parent? id).map (StepKey.mk .drop)).filter fun key => key ∈ m.keys
  else if ⟨.drop, id⟩ ∈ m.keys then some ⟨.drop, id⟩
  else none

/-- Two drops are put in order: something that the first one removes needs something that the second
one removes, which is not owned by what the first one drops; or the second one drops the parent of
what the first one drops. -/
def Orders (m : Migration) (pairs : List DependencyPair) (earlier later : StepKey) : Prop :=
  earlier ≠ later ∧
    ((∃ dependent need, m.removal? dependent = some earlier ∧ m.removal? need = some later ∧
      m.old.Needs pairs dependent need ∧ ¬ m.old.Owns earlier.id need) ∨
    ∃ id owner, m.old.parent? id = some owner ∧ (earlier = ⟨.drop, id⟩ ∧ earlier ∈ m.keys) ∧
      later = ⟨.drop, owner⟩ ∧ later ∈ m.keys)

/-- What goes away, and does not vanish, is removed by the action that it goes away with. -/
theorem removal?_of_departure? (h : m.departure? id = some key) (hnot : ¬ m.Vanishes id) :
    m.removal? id = some key := by
  rw [departure?, if_neg hnot] at h
  rw [removal?]
  split at h
  · next hin => rwa [if_pos hin]
  · cases h

section
variable {st : Staging} {planned : List Step} (h : m.Runs st planned)
  (hold : st.plan.old.WellFormed)
include h hold

/-- What travels has no drop of its own beside that of its table. -/
theorem Runs.not_dropped_beside {owner : ObjectId} (hplan : st.plan.Distinct)
    (htravels : st.travels id = true) (hp : st.plan.old.parent? id = some owner)
    (howner : ⟨.drop, owner⟩ ∈ m.keys) : ⟨.drop, id⟩ ∉ m.keys := by
  intro hkey
  rcases h.mem_keys.1 hkey with hplanned | hdetached
  · obtain ⟨entry, -, rfl, hasks⟩ := (Staging.key_mem_planned h.steps).1 hplanned
    have hsub := ObjectKind.isSubElement_of_inline
      ((h.travels_iff.1 htravels).imp_right And.left)
    have hside : (st.side .drop).WellFormed := hold
    have hspared : st.spared entry.id .drop = true :=
      (Staging.spared_iff hside (Snapshot.contains_of_parent? hp)).2 ⟨hsub, owner, hp,
        (h.mem_keys_iff_of_not_isSubElement hplan (hold.not_isSubElement_of_parent? hp)).1 howner⟩
    exact (Staging.asks_iff.1 hasks).2 ⟨hspared, htravels⟩
  · have hin : id ∈ m.detached := by
      rw [h.detached, ObjectId.mem_sortedSet]
      exact (Staging.key_mem_detachedSteps.1 hdetached).1
    rcases h.travels_iff.1 htravels with hcolumn | ⟨-, hnot⟩
    · rw [h.constraints _ hin] at hcolumn
      cases hcolumn
    · exact hnot hin

/-- What travels is removed with its table. -/
theorem Runs.removal?_of_travels {owner : ObjectId} (hplan : st.plan.Distinct)
    (htravels : st.travels id = true) (hp : st.plan.old.parent? id = some owner)
    (howner : ⟨.drop, owner⟩ ∈ m.keys) : m.removal? id = some ⟨.drop, owner⟩ := by
  have hkind := (h.travels_iff.1 htravels).imp_right And.left
  have hnot := h.not_dropped_beside hold hplan htravels hp howner
  rw [removal?, if_neg hnot, if_pos hkind, h.old, hp]
  simp [howner]

/-- The order of removals knows for each object the step that removes it. -/
theorem Runs.remover?_iff (hplan : st.plan.Distinct) :
    st.remover? (st.allSteps planned) id = some key ↔ m.removal? id = some key := by
  refine ⟨fun hremover => ?_, h.remover?_of_removal? hold⟩
  rcases Staging.remover?_eq_some.1 hremover with ⟨rfl, hin⟩ | ⟨rfl, hnot, hsub, htravels, hin⟩
  · rw [removal?, if_pos (h.keys.mem_iff.2 hin)]
  · cases hthere : st.plan.old.contains id with
    | false =>
      -- An object that is not in the snapshot would be its own nearest owner.
      rw [Snapshot.topLevel_of_not_contains hthere] at hin
      exact absurd hin hnot
    | true =>
      obtain ⟨owner, hp⟩ := hold.exists_parent? hthere fun heq => by rw [heq] at hsub; cases hsub
      rw [hold.topLevel_of_parent? hsub hp] at hin ⊢
      exact h.removal?_of_travels hold hplan htravels hp (h.keys.mem_iff.2 hin)

/-- A drop takes over what the objects need that it removes. -/
theorem Runs.carried_iff (hplan : st.plan.Distinct) {s : Statement} {step : Step}
    (hstep : step ∈ st.allSteps planned) (hdrop : step.key.kind = .drop) :
    (∃ constraint, (s, constraint) ∈ st.carried step.statement (st.droppedChildren step.key.id)) ↔
      st.plan.old.get? s.id = some s ∧ m.removal? s.id = some step.key := by
  refine ⟨?_, fun ⟨hs, hremoval⟩ => h.carried_of_removal? hold hremoval hs hstep⟩
  rintro ⟨constraint, hcarried⟩
  have hkey : step.key ∈ m.keys := h.keys.mem_iff.2 (List.mem_map_of_mem hstep)
  have hstatement := Staging.statement?_of_mem_allSteps h.steps hstep
  obtain ⟨⟨kind, id⟩, statement, order⟩ := step
  obtain rfl : kind = .drop := hdrop
  replace hstatement : st.plan.old.get? id = some statement := hstatement
  rcases Staging.mem_carried hcarried with rfl | ⟨hchild, htravels⟩
  · obtain rfl := (Snapshot.get?_some hstatement).2
    exact ⟨hstatement, by rw [removal?, if_pos hkey]⟩
  · unfold Staging.droppedChildren at hchild
    split at hchild
    · cases hchild
    · obtain ⟨hs, hparent⟩ := hold.mem_children.1 (List.mem_filter.1 hchild).1
      exact ⟨hs, h.removal?_of_travels hold hplan htravels
        (Snapshot.parent?_eq_some.2 ⟨s, hs, hparent⟩) hkey⟩

end

section
variable {old new : Snapshot} {elements : List Element} {extra : ExtraDependencies} {plan : Plan}
  {st : Staging} {planned : List Step} (h : m.Derives old new elements extra plan st planned)
include h

/-- The drop that removes an object asks to run before the one that removes what the object needs,
unless this is owned by what the drop drops. -/
theorem Derives.asked_of_needs (hold : old.WellFormed) {dependent need : ObjectId}
    {removal other : StepKey} (hremoval : m.removal? dependent = some removal)
    (hother : m.removal? need = some other) (hdiff : removal ≠ other)
    (hneeds : old.Needs extra.old dependent need) (howned : ¬ old.Owns removal.id need) :
    ∃ reason, st.Asked planned ⟨removal, other, reason⟩ := by
  obtain rfl := h.planOld
  obtain ⟨hdrop, hkey⟩ := drop_of_removal? hremoval
  obtain ⟨step, hstep, rfl⟩ := List.mem_map.1 (h.runs.keys.mem_iff.1 hkey)
  obtain ⟨s, hs⟩ := Snapshot.contains_iff.1 (h.contains_of_needs hneeds)
  obtain ⟨-, rfl⟩ := Snapshot.get?_some hs
  obtain ⟨constraint, hcarried⟩ := (h.runs.carried_iff hold h.distinct hstep hdrop).2 ⟨hs, hremoval⟩
  have hneed : need ∈ st.oldNeeds s := by
    rw [Staging.oldNeeds, h.stagedExtra]
    exact Snapshot.mem_of_needs hs hneeds
  have hne : need ≠ step.key.id := by
    -- Otherwise the step drops `need` itself and is its removal.
    intro heq
    have hown : step.key = ⟨.drop, need⟩ := by rw [heq, ← hdrop]
    rw [removal?, ← hown, if_pos hkey] at hother
    exact hdiff (Option.some.inj hother)
  have hforeign : st.plan.old.isDescendant need step.key.id = false := by
    rw [← Bool.not_eq_true, hold.isDescendant_iff]
    exact howned
  obtain ⟨reason, hprecedence⟩ := Staging.mem_removal_of_need hcarried hneed hne hforeign
    (.inl ((h.runs.remover?_iff hold h.distinct).2 hother)) hdiff
  exact ⟨reason, .removal hstep hdrop hprecedence⟩

/-- Before other drops, a drop asks to run only if it is put in order with them. -/
theorem Derives.orders_of_removal (hold : old.WellFormed) {step : Step} {p : Precedence}
    (hstep : step ∈ st.allSteps planned) (hdrop : step.key.kind = .drop)
    (hp : p ∈ st.removal (st.allSteps planned) step) (hlater : p.later.kind = .drop) :
    m.Orders extra.old p.earlier p.later := by
  obtain rfl := h.planOld
  refine ⟨(Staging.removal_spec hp).2.2.1, ?_⟩
  rcases Staging.mem_removal_iff.1 hp with
    ⟨s, constraint, need, later, hcarried, hneed, -, hforeign, hcases, -, rfl⟩ |
      ⟨owner, hparent, hhas, -, rfl⟩
  · obtain ⟨hs, hremoval⟩ :=
      (h.runs.carried_iff hold h.distinct hstep hdrop).1 ⟨constraint, hcarried⟩
    rw [Staging.oldNeeds, h.stagedExtra] at hneed
    rw [h.migrationOld]
    refine .inl ⟨s.id, need, hremoval, ?_, Snapshot.needs_of_mem hs hneed, ?_⟩
    · rcases hcases with hremover | ⟨rfl, -⟩
      · exact (h.runs.remover?_iff hold h.distinct).1 hremover
      · cases hlater
    · rw [← hold.isDescendant_iff, hforeign]
      exact Bool.false_ne_true
  · have hs := Staging.statement?_of_mem_allSteps h.runs.steps hstep
    obtain ⟨⟨kind, id⟩, statement, order⟩ := step
    obtain rfl : kind = .drop := hdrop
    refine .inr ⟨id, owner, ?_, ⟨rfl, h.runs.keys.mem_iff.2 (List.mem_map_of_mem hstep)⟩, rfl,
      h.runs.has_iff.1 hhas⟩
    rw [h.migrationOld]
    exact Snapshot.parent?_eq_some.2 ⟨statement, hs, hparent⟩

/-- Drops are put in order exactly as the steps of the plan ask for it. -/
theorem Derives.orders_iff (hold : old.WellFormed) {earlier later : StepKey} :
    m.Orders extra.old earlier later ↔ earlier.kind = .drop ∧ later.kind = .drop ∧
      ∃ reason, st.Asked planned ⟨earlier, later, reason⟩ := by
  constructor
  · rintro ⟨hdiff, ⟨dependent, need, hremoval, hother, hneeds, howned⟩ |
      ⟨id, owner, hp, ⟨rfl, hkey⟩, rfl, hlater⟩⟩
    · rw [h.migrationOld] at hneeds howned
      exact ⟨(drop_of_removal? hremoval).1, (drop_of_removal? hother).1,
        h.asked_of_needs hold hremoval hother hdiff hneeds howned⟩
    · rw [h.migrationOld, ← h.planOld] at hp
      exact ⟨rfl, rfl, .hard, h.runs.asked_of_parent? (h.planOld.symm ▸ hold) hp hkey hlater⟩
  · rintro ⟨hdrop, hlater, reason, hasked⟩
    -- Creations ask for steps that come before them, and alterations drop nothing.
    cases hasked with
    | need _ hbrings =>
      rcases hbrings.kind with hkind | hkind <;> cases hkind.symm.trans hlater
    | afterDrops _ hcreates hp =>
      obtain ⟨-, rfl, -⟩ := Staging.afterDrops_spec hp
      cases hcreates.symm.trans hlater
    | released _ halters hp =>
      obtain ⟨rfl, -⟩ := Staging.beforeReleased_spec hp
      cases halters.symm.trans hdrop
    | removal hstep hkind hp => exact h.orders_of_removal hold hstep hkind hp hlater

/-- Drops that are put in order run in that order. -/
theorem Derives.runsBefore_of_orders (hold : old.WellFormed) {earlier later : StepKey}
    (horders : m.Orders extra.old earlier later) : m.RunsBefore earlier later := by
  obtain ⟨-, -, reason, hasked⟩ := (h.orders_iff hold).1 horders
  obtain ⟨hearlier, hlater, -⟩ := hasked.spec
  exact h.runs.order _ (Staging.mem_precedences_of_asked hasked) (h.runs.keys.mem_iff.2 hearlier)
    (h.runs.keys.mem_iff.2 hlater)

end

/-- **Order of departures.** If an object that needs another one in the old snapshot, or by an extra
pair of its side, goes away with one action and the other one with another action, the first action
runs before the second one, unless the other object is owned by what the first action drops, or the
two actions are not put in order: this is only so if one of the objects vanishes with its table or
view. -/
theorem departure_order {old new : Snapshot} {elements : List Element} {extra : ExtraDependencies}
    (hold : old.WellFormed) (hnew : new.WellFormed)
    (hm : ofElements old new elements extra = .ok m) {dependent need : ObjectId}
    {departure other : StepKey} (hneeds : old.Needs extra.old dependent need)
    (hdeparture : m.departure? dependent = some departure) (hother : m.departure? need = some other)
    (hdiff : other ≠ departure) (howned : ¬ old.Owns departure.id need) :
    m.RunsBefore departure other ∨
      ¬ m.Orders extra.old departure other ∧ (m.Vanishes dependent ∨ m.Vanishes need) := by
  obtain ⟨plan, st, planned, h⟩ := exists_derives hold hnew hm
  by_cases horders : m.Orders extra.old departure other
  · exact .inl (h.runsBefore_of_orders hold horders)
  · refine .inr ⟨horders, ?_⟩
    by_contra hnot
    rw [not_or] at hnot
    refine horders ⟨hdiff.symm, .inl ⟨dependent, need, removal?_of_departure? hdeparture hnot.1,
      removal?_of_departure? hother hnot.2, ?_, ?_⟩⟩ <;> rwa [h.migrationOld]

/-! ### A policy that changes its function with a column -/

namespace PolicyFunction

/-- A schema. -/
def schema (name : String) : ObjectId := ⟨.schema, [name]⟩

/-- A function of the first schema. -/
def function (name : String) : ObjectId := ⟨.function, ["a", signature name []]⟩

/-- The table of the second schema. -/
def table : ObjectId := .table "b" "t"

/-- The column of the table. -/
def column : ObjectId := table.child .column "c"

/-- The policy of the table. -/
def policy : ObjectId := table.child .policy "p"

/-- A function, and the table with a column and a policy that call it. -/
def snapshot (name : String) (partitionBy : Option String) : Snapshot where
  dialect := .postgres
  statements :=
    [{ id := .database, parent := none, definition := .database,
       children := [schema "a", schema "b"] },
     { id := schema "a", parent := some .database, definition := .schema {},
       children := [function name] },
     { id := function name, parent := some (schema "a"),
       definition := .function
         { returns := some "boolean", language := some "sql", body := "SELECT true" } },
     { id := schema "b", parent := some .database, definition := .schema {}, children := [table] },
     { id := table, parent := some (schema "b"), definition := .table { partitionBy },
       children := [column, policy] },
     { id := column, parent := some table, dependencies := [function name]
       definition := .column { dataType := "boolean", default := some ("a." ++ name ++ "()") } },
     { id := policy, parent := some table, dependencies := [function name]
       definition := .policy { usingCondition := some ("a." ++ name ++ "()") } }]
  fingerprints := []

/-- The table is dropped before the function that the policy calls: the policy vanishes with the
table, and it is the column that puts the two drops in order. -/
theorem table_dropped_before_function :
    ∃ m, ofElements (snapshot "f" none) (snapshot "g" (some "RANGE (c)"))
        [⟨function "f", .onlyOld⟩, ⟨function "g", .onlyNew⟩, ⟨table, .both⟩, ⟨column, .both⟩,
          ⟨policy, .both⟩] {} = .ok m ∧
      (snapshot "f" none).Needs [] policy (function "f") ∧ m.Vanishes policy ∧
      m.departure? policy = some ⟨.drop, table⟩ ∧
      m.departure? (function "f") = some ⟨.drop, function "f"⟩ ∧
      ¬ (snapshot "f" none).Owns table (function "f") ∧
      m.RunsBefore ⟨.drop, table⟩ ⟨.drop, function "f"⟩ := by
  obtain ⟨m, hm, htest⟩ := exists_ok_of_test (p := fun m : Migration =>
      decide (m.Vanishes policy ∧ m.departure? policy = some ⟨.drop, table⟩ ∧
        m.departure? (function "f") = some ⟨.drop, function "f"⟩ ∧
        m.removal? column = some ⟨.drop, table⟩ ∧
        m.removal? (function "f") = some ⟨.drop, function "f"⟩))
    (show (ofElements (snapshot "f" none) (snapshot "g" (some "RANGE (c)"))
      [⟨function "f", .onlyOld⟩, ⟨function "g", .onlyNew⟩, ⟨table, .both⟩, ⟨column, .both⟩,
        ⟨policy, .both⟩] {}).toOption.any _ = true by decide +kernel)
  obtain ⟨hvanishes, hdeparture, hother, hcolumn, hfunction⟩ := of_decide_eq_true htest
  have hold : (snapshot "f" none).WellFormed := by decide +kernel
  have hneeds : (snapshot "f" none).Needs [] policy (function "f") :=
    .inl ⟨_, rfl, List.mem_cons_self⟩
  have howned : ¬ (snapshot "f" none).Owns table (function "f") := by
    rw [← hold.isDescendant_iff]
    decide +kernel
  have hnew : (snapshot "g" (some "RANGE (c)")).WellFormed := by decide +kernel
  have horders : m.Orders [] ⟨.drop, table⟩ ⟨.drop, function "f"⟩ := by
    obtain ⟨_, _, _, h⟩ := exists_derives hold hnew hm
    refine ⟨by decide, .inl ⟨column, function "f", hcolumn, hfunction, ?_, ?_⟩⟩
    · rw [h.migrationOld]
      exact .inl ⟨_, rfl, List.mem_cons_self⟩
    · rwa [h.migrationOld]
  exact ⟨m, hm, hneeds, hvanishes, hdeparture, hother, howned,
    (departure_order hold hnew hm hneeds hdeparture hother (by decide) howned).resolve_right
      fun hnot => hnot.1 horders⟩

end PolicyFunction

/-! ### A trigger that changes its function -/

namespace TriggerFunction

/-- A schema. -/
def schema (name : String) : ObjectId := ⟨.schema, [name]⟩

/-- A function of the first schema. -/
def function (name : String) : ObjectId := ⟨.function, ["a", signature name []]⟩

/-- The table of the second schema. -/
def table : ObjectId := .table "b" "t"

/-- The trigger of the table. -/
def trigger : ObjectId := table.child .trigger "trg"

/-- A function, and the table with a trigger that runs it. -/
def snapshot (name : String) (partitionBy : Option String) : Snapshot where
  dialect := .postgres
  statements :=
    [{ id := .database, parent := none, definition := .database,
       children := [schema "a", schema "b"] },
     { id := schema "a", parent := some .database, definition := .schema {},
       children := [function name] },
     { id := function name, parent := some (schema "a"),
       definition := .function { returns := some "trigger", language := some "plpgsql" } },
     { id := schema "b", parent := some .database, definition := .schema {}, children := [table] },
     { id := table, parent := some (schema "b"), definition := .table { partitionBy },
       children := [trigger] },
     { id := trigger, parent := some table, dependencies := [function name, table]
       definition := .trigger
         { timing := "BEFORE", events := ["INSERT"], function := some ("a." ++ name) } }]
  fingerprints := []

/-- The trigger needs its function. -/
theorem needs_function (name : String) (partitionBy : Option String) :
    (snapshot name partitionBy).Needs [] trigger (function name) :=
  .inl ⟨_, rfl, List.mem_cons_self⟩

/-- If the table is recreated, the function is dropped while the table is there with its trigger. -/
theorem function_dropped_before_trigger :
    ∃ m, ofElements (snapshot "f" none) (snapshot "g" (some "RANGE (a)"))
        [⟨function "f", .onlyOld⟩, ⟨function "g", .onlyNew⟩, ⟨table, .both⟩, ⟨trigger, .both⟩] {} =
          .ok m ∧
      (snapshot "f" none).Needs [] trigger (function "f") ∧
      m.departure? trigger = some ⟨.drop, table⟩ ∧
      m.departure? (function "f") = some ⟨.drop, function "f"⟩ ∧
      ¬ (snapshot "f" none).Owns table (function "f") ∧
      ¬ m.RunsBefore ⟨.drop, table⟩ ⟨.drop, function "f"⟩ := by
  obtain ⟨m, hm, htest⟩ := exists_ok_of_test (p := fun m : Migration =>
      decide (m.departure? trigger = some ⟨.drop, table⟩ ∧
        m.departure? (function "f") = some ⟨.drop, function "f"⟩ ∧
        ¬ m.RunsBefore ⟨.drop, table⟩ ⟨.drop, function "f"⟩))
    (show (ofElements (snapshot "f" none) (snapshot "g" (some "RANGE (a)"))
      [⟨function "f", .onlyOld⟩, ⟨function "g", .onlyNew⟩, ⟨table, .both⟩,
        ⟨trigger, .both⟩] {}).toOption.any _ = true by decide +kernel)
  obtain ⟨hdeparture, hother, hbefore⟩ := of_decide_eq_true htest
  have hold : (snapshot "f" none).WellFormed := by decide +kernel
  refine ⟨m, hm, needs_function "f" none, hdeparture, hother, ?_, hbefore⟩
  rw [← hold.isDescendant_iff]
  decide +kernel

end TriggerFunction

end Migration

end SchemaMigration
