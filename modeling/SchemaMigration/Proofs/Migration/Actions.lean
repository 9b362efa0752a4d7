import SchemaMigration.Migration.Basic
import SchemaMigration.Proofs.Graph.TopologicalOrder
import SchemaMigration.Proofs.Plan.Breaking
import SchemaMigration.Proofs.Plan.Selection

/-!
# The actions of a migration

A migration runs the steps of its plan, each once (`Migration.Runs`): its actions are those of the
planned steps and of the steps of detached constraints, in an order in which each precedence that
was collected for them is kept. What is known of a plan that was expanded is known of the entries
of the migration (`Migration.exists_runs`).
-/

namespace SchemaMigration

/-- An action is known by what it does with which object. -/
def Action.key (action : Action) : StepKey := ⟨action.kind, action.statement.id⟩

namespace Migration

/-- What the actions of a migration do, in order. -/
def keys (m : Migration) : List StepKey := m.actions.map (·.key)

/-- A migration takes one action before another. -/
def RunsBefore (m : Migration) (earlier later : StepKey) : Prop := [earlier, later].Sublist m.keys

/-- Whether one action comes before another can be computed. -/
instance (m : Migration) (earlier later : StepKey) : Decidable (m.RunsBefore earlier later) :=
  inferInstanceAs (Decidable (List.Sublist _ _))

/-- A migration runs the steps of a staged plan. -/
structure Runs (m : Migration) (st : Staging) (planned : List Step) : Prop where
  steps : st.plannedSteps = .ok planned
  old : m.old = st.plan.old
  new : m.new = st.plan.new
  entries : m.entries = st.plan.entries
  detached : m.detached = ObjectId.sortedSet st.breaks.detached
  /-- Only constraints are detached. -/
  constraints : ∀ id ∈ m.detached, id.kind = .constraint
  /-- Each action is that of a step. -/
  actions : ∀ action ∈ m.actions, ∃ step ∈ st.allSteps planned, action? st.plan step = some action
  /-- Each step has its action. -/
  keys : m.keys.Perm ((st.allSteps planned).map (·.key))
  /-- The actions keep the precedences of their steps. -/
  order : ∀ p ∈ (st.web planned).precedences, p.earlier ∈ m.keys → p.later ∈ m.keys →
    m.RunsBefore p.earlier p.later

/-- The action of a step is known by the key of the step. -/
theorem key_of_action? {plan : Plan} {step : Step} {action : Action}
    (hid : step.statement.id = step.key.id) (h : action? plan step = some action) :
    action.key = step.key := by
  obtain ⟨treatment, -, rfl⟩ := Option.map_eq_some_iff.1 h
  rw [Action.key, hid]

/-- A step has an action unless it is a pass-through step. -/
theorem exists_action? {plan : Plan} {step : Step} :
    (∃ action, action? plan step = some action) ↔ step.key.kind ≠ .passThrough := by
  rw [← Option.isSome_iff_exists, action?, Option.isSome_map]
  cases step.key.kind <;> simp [StepKind.treatment?]

/-- The actions of the steps of some keys, in order: those of a graph that holds a step for each
key, and pass-through steps beside those of the plan. -/
theorem map_key_actions {st : Staging} {planned passes steps : List Step}
    (hplanned : st.plannedSteps = .ok planned) (hsteps : steps = st.allSteps planned ++ passes)
    (hpasses : ∀ step ∈ passes, step.key.kind = .passThrough) {order : List StepKey}
    (horder : ∀ key ∈ order, key ∈ steps.map (·.key)) :
    ((order.filterMap fun key => steps.find? (·.key == key)).filterMap (action? st.plan)).map
      (·.key) = order.filter (·.kind ≠ .passThrough) := by
  rw [List.filterMap_filterMap, List.map_filterMap, ← List.filterMap_eq_filter]
  refine List.filterMap_congr fun key hkey => ?_
  obtain ⟨other, hother, hkeyOf⟩ := List.mem_map.1 (horder key hkey)
  obtain ⟨step, hstep⟩ := Option.isSome_iff_exists.1
    (List.find?_isSome (p := fun step : Step => step.key == key) |>.2
      ⟨other, hother, beq_iff_eq.2 hkeyOf⟩)
  have hmem := List.mem_of_find?_eq_some hstep
  obtain rfl : step.key = key := by simpa using List.find?_some hstep
  rw [hstep, Option.bind_some]
  by_cases hpass : step.key.kind = .passThrough
  · have hnone : action? st.plan step = none := by
      rw [Option.eq_none_iff_forall_ne_some]
      exact fun action haction => exists_action?.1 ⟨action, haction⟩ hpass
    simp [hnone, hpass, Option.guard]
  · obtain ⟨action, haction⟩ : ∃ action, action? st.plan step = some action :=
      exists_action?.2 hpass
    have hall : step ∈ st.allSteps planned := by
      rw [hsteps, List.mem_append] at hmem
      exact hmem.resolve_right fun hin => hpass (hpasses step hin)
    have hid := (Snapshot.get?_some (Staging.statement?_of_mem_allSteps hplanned hall)).2
    simp [haction, hpass, Option.guard, key_of_action? hid haction]

/-- Without pass-through steps, the keys of a graph are those of the steps of the plan. -/
theorem filter_key_steps {st : Staging} {planned passes steps : List Step}
    (hplanned : st.plannedSteps = .ok planned) (hsteps : steps = st.allSteps planned ++ passes)
    (hpasses : ∀ step ∈ passes, step.key.kind = .passThrough) :
    (steps.map (·.key)).filter (·.kind ≠ .passThrough) = (st.allSteps planned).map (·.key) := by
  have hall : ((st.allSteps planned).map (·.key)).filter (·.kind ≠ .passThrough) =
      (st.allSteps planned).map (·.key) := by
    refine List.filter_eq_self.2 fun key hkey => ?_
    simpa using Staging.kind_ne_passThrough hplanned hkey
  have hnone : (passes.map (·.key)).filter (·.kind ≠ .passThrough) = [] := by
    refine List.filter_eq_nil_iff.2 fun key hkey => ?_
    obtain ⟨step, hstep, rfl⟩ := List.mem_map.1 hkey
    simp [hpasses step hstep]
  rw [hsteps, List.map_append, List.filter_append, hall, hnone, List.append_nil]

/-- The migration of a plan runs the steps of what the plan expands to. -/
theorem exists_runs {plan : Plan} {extra : ExtraDependencies} {m : Migration}
    (h : ofPlan plan extra = .ok m) :
    ∃ st planned, st.plan = plan.expand extra.old ∧ st.extra = extra ∧ m.Runs st planned := by
  simp only [ofPlan, bind_eq_ok] at h
  obtain ⟨⟨graph, breaks⟩, hacyclic, h⟩ := h
  obtain ⟨hgraph, -, hbounded⟩ := Staging.acyclicGraph_eq_ok hacyclic
  generalize hst : ({ plan := plan.expand extra.old, extra, breaks } : Staging) = st at hgraph
  obtain ⟨planned, passes, hplanned, hsteps, hpasses, hprecedences⟩ :=
    Staging.stepGraph_eq_ok hgraph
  cases hsorted : graph.sorted? with
  | none => rw [hsorted] at h; cases h
  | some order =>
    rw [hsorted] at h
    obtain rfl := Except.ok.inj h
    have hplan : st.plan = plan.expand extra.old := hst ▸ rfl
    have hperm : order.Perm graph.keys := by
      have := Graph.topologicalOrder_perm hsorted
      rwa [List.map_map] at this
    have hkeys := map_key_actions hplanned hsteps hpasses fun key hkey => hperm.mem_iff.1 hkey
    rw [hplan] at hkeys
    refine ⟨st, planned, hplan, hst ▸ rfl, hplanned, hplan ▸ rfl, hplan ▸ rfl, hplan ▸ rfl,
      hst ▸ rfl, fun id hid => ?_, fun action haction => ?_, ?_, fun p hp hearlier hlater => ?_⟩
    · exact (hbounded.constraints id (ObjectId.mem_sortedSet.1 hid)).1
    · obtain ⟨step, hstep, haction⟩ := List.mem_filterMap.1 haction
      obtain ⟨key, -, hfind⟩ := List.mem_filterMap.1 hstep
      refine ⟨step, ?_, hplan ▸ haction⟩
      have hmem := List.mem_of_find?_eq_some hfind
      rw [hsteps, List.mem_append] at hmem
      exact hmem.resolve_right fun hin => exists_action?.1 ⟨action, haction⟩ (hpasses step hin)
    · rw [Migration.keys, hkeys]
      refine (hperm.filter _).trans ?_
      rw [StepGraph.keys, filter_key_steps hplanned hsteps hpasses]
    · rw [Migration.keys, hkeys] at hearlier hlater
      rw [RunsBefore, Migration.keys, hkeys]
      have hmem : ∀ {key}, key ∈ order.filter (·.kind ≠ .passThrough) →
          key ∈ (graph.steps.map fun step => (step.key, step.priority)).map (·.1) := by
        intro key hkey
        rw [List.map_map]
        exact hperm.mem_iff.1 (List.mem_of_mem_filter hkey)
      have hsublist := Graph.sublist_of_topologicalOrder hsorted
        (List.mem_map_of_mem (f := fun p : Precedence => (p.earlier, p.later)) (hprecedences ▸ hp))
        (hmem hearlier) (hmem hlater)
      have hpair : [p.earlier, p.later].filter (·.kind ≠ .passThrough) = [p.earlier, p.later] :=
        List.filter_eq_self.2 fun key hkey => by
          rcases List.mem_cons.1 hkey with rfl | hkey
          · exact (List.mem_filter.1 hearlier).2
          · rw [List.mem_singleton.1 hkey]
            exact (List.mem_filter.1 hlater).2
      exact hpair ▸ hsublist.filter _

/-- No migration takes an action twice. -/
theorem Runs.nodup_keys {m : Migration} {st : Staging} {planned : List Step}
    (h : m.Runs st planned) (hplan : st.plan.Distinct) : m.keys.Nodup :=
  h.keys.nodup_iff.2 (Staging.nodup_allSteps h.steps hplan)

section
variable {m : Migration} {st : Staging} {planned : List Step} (h : m.Runs st planned)
include h

/-- Steps are found by their keys among those that have actions. -/
theorem Runs.has_iff {key : StepKey} :
    Steps.has (st.allSteps planned) key = true ↔ key ∈ m.keys :=
  Steps.has_iff.trans h.keys.mem_iff.symm

/-- The actions are those of the planned steps and those of detached constraints. -/
theorem Runs.mem_keys {key : StepKey} :
    key ∈ m.keys ↔ key ∈ planned.map (·.key) ∨ key ∈ (st.detachedSteps planned).map (·.key) := by
  rw [h.keys.mem_iff, Staging.allSteps, List.map_append, List.mem_append]

/-- The action of an object that is no sub-element was planned. -/
theorem Runs.mem_planned {kind : StepKind} {id : ObjectId} (hsub : id.kind.isSubElement = false)
    (hkey : ⟨kind, id⟩ ∈ m.keys) : ⟨kind, id⟩ ∈ planned.map (·.key) := by
  refine (h.mem_keys.1 hkey).elim (fun hin => hin) fun hdetached => ?_
  have htable := (Staging.key_mem_detachedSteps.1 hdetached).2.2.2.1
  simp only [Snapshot.topLevel_of_not_isSubElement hsub] at htable
  exact htable

/-- The step that an entry asks for is run. -/
theorem Runs.mem_keys_of_asks {kind : StepKind} {id : ObjectId} {entry : PlanEntry}
    (hentry : st.plan.get? id = some entry) (hasks : st.asks entry kind = true) :
    ⟨kind, id⟩ ∈ m.keys := by
  obtain ⟨hmem, hid⟩ := Plan.get?_some hentry
  exact h.mem_keys.2 (.inl ((Staging.key_mem_planned h.steps).2 ⟨entry, hmem, hid, hasks⟩))

/-- What is no sub-element has the actions that its entry asks for. -/
theorem Runs.mem_keys_iff_of_not_isSubElement (hplan : st.plan.Distinct) {kind : StepKind}
    {id : ObjectId} (hsub : id.kind.isSubElement = false) :
    ⟨kind, id⟩ ∈ m.keys ↔
      ∃ entry, st.plan.get? id = some entry ∧ entry.treatment.asks kind = true := by
  constructor
  · intro hkey
    obtain ⟨entry, hentry, rfl, hasks⟩ :=
      (Staging.key_mem_planned h.steps).1 (h.mem_planned hsub hkey)
    exact ⟨entry, hplan.get?_of_mem hentry, (Staging.asks_iff.1 hasks).1⟩
  · rintro ⟨entry, hentry, htreatment⟩
    refine h.mem_keys_of_asks hentry (Staging.asks_iff.2 ⟨htreatment, ?_⟩)
    rw [(Plan.get?_some hentry).2, Staging.not_spared hsub]
    simp

/-- Every action is about a statement that the snapshot of its side holds. -/
theorem Runs.exists_statement {key : StepKey} (hkey : key ∈ m.keys) :
    ∃ step ∈ st.allSteps planned, step.key = key ∧ st.statement? key = some step.statement := by
  obtain ⟨step, hstep, rfl⟩ := List.mem_map.1 (h.keys.mem_iff.1 hkey)
  exact ⟨step, hstep, rfl, Staging.statement?_of_mem_allSteps h.steps hstep⟩

/-- An action is about the statement that its key names. -/
theorem Runs.statement?_of_action {action : Action} (haction : action ∈ m.actions) :
    action.key ∈ m.keys ∧ st.statement? action.key = some action.statement := by
  obtain ⟨step, hstep, hof⟩ := h.actions action haction
  have hs := Staging.statement?_of_mem_allSteps h.steps hstep
  have hkey := key_of_action? (Snapshot.get?_some hs).2 hof
  refine ⟨List.mem_map_of_mem haction, ?_⟩
  obtain ⟨treatment, -, rfl⟩ := Option.map_eq_some_iff.1 hof
  rw [hkey, hs]

/-- What is created comes after all that its step has to come after. -/
theorem Runs.before_create {earlier : StepKey} {step : Step} {id : ObjectId}
    (hstep : step ∈ st.allSteps planned) (hkey : step.key = ⟨.create, id⟩)
    (hne : earlier ≠ step.key) (hearlier : earlier ∈ m.keys)
    (hafter : earlier ∈ ((step.statement.parent.toList.map (StepKey.mk .create) ++
        [StepKey.mk .drop step.key.id]).filter (Steps.has (st.allSteps planned))) ++
      (planned.filter fun other => other.key.kind = .drop && step.key.id.relationKey?.isSome &&
        other.key.id.relationKey? == step.key.id.relationKey?).map (·.key)) :
    m.RunsBefore earlier ⟨.create, id⟩ := by
  refine hkey ▸ h.order ⟨earlier, step.key, .hard⟩
    (Staging.mem_precedences_of_afterDrops hstep (by rw [hkey]) ?_) hearlier
      (h.keys.mem_iff.2 (List.mem_map_of_mem hstep))
  exact List.mem_flatMap.2 ⟨earlier, hafter, Staging.mem_precede hne (by simp)⟩

/-- What is dropped and created is dropped first. -/
theorem Runs.dropped_before_created {id : ObjectId} (hdrop : ⟨.drop, id⟩ ∈ m.keys)
    (hcreate : ⟨.create, id⟩ ∈ m.keys) : m.RunsBefore ⟨.drop, id⟩ ⟨.create, id⟩ := by
  obtain ⟨step, hstep, hkey, -⟩ := h.exists_statement hcreate
  refine h.before_create hstep hkey (by simp [hkey]) hdrop (List.mem_append_left _ ?_)
  rw [hkey]
  exact List.mem_filter.2 ⟨List.mem_append_right _ (List.mem_singleton_self _),
    h.has_iff.2 hdrop⟩

/-- A parent is created before what stands under it. -/
theorem Runs.owner_created_first {id owner : ObjectId} (hnew : st.plan.new.WellFormed)
    (hp : st.plan.new.parent? id = some owner) (howner : ⟨.create, owner⟩ ∈ m.keys)
    (hcreate : ⟨.create, id⟩ ∈ m.keys) : m.RunsBefore ⟨.create, owner⟩ ⟨.create, id⟩ := by
  obtain ⟨step, hstep, hkey, hs⟩ := h.exists_statement hcreate
  obtain ⟨s, hs', hparent⟩ := Snapshot.parent?_eq_some.1 hp
  obtain rfl : step.statement = s := Option.some.inj (hs.symm.trans hs')
  have hne := hnew.ne_of_parent? hp
  refine h.before_create hstep hkey (by rw [hkey]; exact fun heq => hne (StepKey.mk.inj heq).2)
    howner (List.mem_append_left _ (List.mem_filter.2 ⟨List.mem_append_left _ ?_,
      h.has_iff.2 howner⟩))
  rw [hparent]
  exact List.mem_singleton_self _

/-- A drop asks to run before that of the parent. -/
theorem Runs.asked_of_parent? {id owner : ObjectId} (hold : st.plan.old.WellFormed)
    (hp : st.plan.old.parent? id = some owner) (hdrop : ⟨.drop, id⟩ ∈ m.keys)
    (howner : ⟨.drop, owner⟩ ∈ m.keys) :
    st.Asked planned ⟨⟨.drop, id⟩, ⟨.drop, owner⟩, .hard⟩ := by
  obtain ⟨step, hstep, hkey, hs⟩ := h.exists_statement hdrop
  obtain ⟨s, hs', hparent⟩ := Snapshot.parent?_eq_some.1 hp
  obtain rfl : step.statement = s := Option.some.inj (hs.symm.trans hs')
  have hne := hold.ne_of_parent? hp
  refine .removal hstep (by rw [hkey]) (Staging.mem_removal_iff.2 (.inr
    ⟨owner, hparent, h.has_iff.2 howner, ?_, by rw [hkey]⟩))
  rw [hkey]
  exact fun heq => hne (StepKey.mk.inj heq).2.symm

/-- What stands under a parent is dropped before the parent. -/
theorem Runs.owner_dropped_last {id owner : ObjectId} (hold : st.plan.old.WellFormed)
    (hp : st.plan.old.parent? id = some owner) (hdrop : ⟨.drop, id⟩ ∈ m.keys)
    (howner : ⟨.drop, owner⟩ ∈ m.keys) : m.RunsBefore ⟨.drop, id⟩ ⟨.drop, owner⟩ :=
  h.order _ (Staging.mem_precedences_of_asked (h.asked_of_parent? hold hp hdrop howner)) hdrop
    howner

/-- Columns go with their table, and so do constraints that are not detached. -/
theorem Runs.travels_iff {id : ObjectId} :
    st.travels id = true ↔ id.kind = .column ∨ id.kind = .constraint ∧ id ∉ m.detached := by
  rw [h.detached, ObjectId.mem_sortedSet, Staging.travels]
  cases id.kind <;> simp

/-- A column or a constraint goes with its table if the table is created or dropped and it has no
such action of its own. -/
theorem Runs.travels_of_absent {kind : StepKind} (hkind : kind = .create ∨ kind = .drop)
    (hside : (st.side kind).WellFormed) {id table : ObjectId} (hnot : ⟨kind, id⟩ ∉ m.keys)
    (hid : id.kind = .column ∨ id.kind = .constraint)
    (hparent : (st.side kind).parent? id = some table) (htable : ⟨kind, table⟩ ∈ m.keys) :
    st.travels id = true := by
  have hsub := ObjectKind.isSubElement_of_inline hid
  have hnotSub := hside.not_isSubElement_of_parent? hparent
  refine h.travels_iff.2 (hid.imp_right fun hid => ⟨hid, fun hdetached => ?_⟩)
  -- A detached constraint has an action of its own beside that of its table.
  rw [h.detached, ObjectId.mem_sortedSet] at hdetached
  refine hnot (h.mem_keys.2 ?_)
  by_cases hin : ⟨kind, id⟩ ∈ planned.map (·.key)
  · exact .inl hin
  · refine .inr (Staging.key_mem_detachedSteps.2 ⟨hdetached, hkind,
      Snapshot.contains_of_parent? hparent, ?_, hin⟩)
    change ⟨kind, (st.side kind).topLevel id⟩ ∈ planned.map (·.key)
    rw [hside.topLevel_of_parent? hsub hparent]
    exact h.mem_planned hnotSub htable

end

/-- What is dropped by an action of its own is dropped for its own entry or for that of its
owner. -/
theorem Runs.exists_entry_of_drop {m : Migration} {st : Staging} {planned : List Step}
    (h : m.Runs st planned) (hold : st.plan.old.WellFormed) {id : ObjectId}
    (hkey : ⟨.drop, id⟩ ∈ m.keys) :
    ∃ entry ∈ st.plan.entries, entry.treatment.drops = true ∧
      (entry.id = id ∨ st.plan.old.parent? id = some entry.id) := by
  have hplanned : ∀ {id}, ⟨.drop, id⟩ ∈ planned.map (·.key) →
      ∃ entry ∈ st.plan.entries, entry.treatment.drops = true ∧ entry.id = id := by
    intro id hin
    obtain ⟨entry, hentry, hid, hasks⟩ := (Staging.key_mem_planned h.steps).1 hin
    exact ⟨entry, hentry, (Bool.and_eq_true_iff.1 hasks).1, hid⟩
  rcases h.mem_keys.1 hkey with hin | hdetached
  · obtain ⟨entry, hentry, hdrops, hid⟩ := hplanned hin
    exact ⟨entry, hentry, hdrops, .inl hid⟩
  · obtain ⟨-, owner, hparent, howner⟩ := Staging.exists_owner_of_detached hdetached hold
    obtain ⟨entry, hentry, hdrops, rfl⟩ := hplanned howner
    exact ⟨entry, hentry, hdrops, .inr hparent⟩

/-! ## Migrations of elements -/

/-- How the migration of some elements came about: they were selected, their plan was expanded, and
the migration runs its steps. -/
structure Derives (m : Migration) (old new : Snapshot) (elements : List Element)
    (extra : ExtraDependencies) (plan : Plan) (st : Staging) (planned : List Step) : Prop where
  checked : extra.check old new = .ok ()
  selected : Plan.ofElements old new elements = .ok plan
  initial : plan.Initial
  initialOld : plan.old = old
  initialNew : plan.new = new
  edited : Plan.Edited extra.old plan st.plan
  complete : st.plan.Complete extra.old
  distinct : st.plan.Distinct
  grounded : st.plan.Grounded
  planOld : st.plan.old = old
  planNew : st.plan.new = new
  stagedExtra : st.extra = extra
  runs : m.Runs st planned

/-- Every migration of elements of well-formed snapshots came about in this way. -/
theorem exists_derives {old new : Snapshot} {elements : List Element} {extra : ExtraDependencies}
    {m : Migration} (hold : old.WellFormed) (hnew : new.WellFormed)
    (h : ofElements old new elements extra = .ok m) :
    ∃ plan st planned, m.Derives old new elements extra plan st planned := by
  simp only [ofElements, bind_eq_ok] at h
  obtain ⟨_, hchecked, plan, hselected, h⟩ := h
  obtain ⟨st, planned, hplan, hextra, hruns⟩ := exists_runs h
  obtain ⟨hinitial, rfl, rfl⟩ := Plan.initial_of_ofElements hold hnew hselected
  obtain ⟨hedited, hcomplete⟩ := hinitial.expand extra.old
  have hadvances := hedited.advances hnew
  rw [← hplan] at hedited hcomplete hadvances
  exact ⟨plan, st, planned, hchecked, hselected, hinitial, rfl, rfl, hedited, hcomplete,
    hedited.distinct hinitial.distinct, hedited.grounded hinitial.grounded, hadvances.old,
    hadvances.new, hextra, hruns⟩

namespace Derives

variable {m : Migration} {old new : Snapshot} {elements : List Element} {extra : ExtraDependencies}
  {plan : Plan} {st : Staging} {planned : List Step}
  (h : m.Derives old new elements extra plan st planned)
include h

/-- The old snapshot of the migration. -/
theorem migrationOld : m.old = old := h.runs.old.trans h.planOld

/-- The new snapshot of the migration. -/
theorem migrationNew : m.new = new := h.runs.new.trans h.planNew

/-- The extra pairs of the old side are of objects of the old snapshot. -/
theorem contains_of_pair {pair : DependencyPair} (hpair : pair ∈ extra.old) :
    old.contains pair.dependent = true ∧ old.contains pair.dependency = true := by
  have hchecked := h.checked
  unfold ExtraDependencies.check at hchecked
  split at hchecked
  · cases hchecked
  · cases hchecked
  · next hnone _ =>
    have hall := List.find?_eq_none.1 hnone
    simp only [List.mem_flatMap, Bool.not_eq_true', Bool.not_eq_false] at hall
    exact ⟨hall _ ⟨pair, hpair, by simp⟩, hall _ ⟨pair, hpair, by simp⟩⟩

/-- What needs something in the old snapshot is there. -/
theorem contains_of_needs {dependent need : ObjectId}
    (hneeds : old.Needs extra.old dependent need) : old.contains dependent = true := by
  rcases hneeds with ⟨s, hs, -⟩ | hpair
  · exact Snapshot.contains_iff.2 ⟨s, hs⟩
  · exact (h.contains_of_pair hpair).1

/-- A migration creates and drops in good faith if its elements do. -/
theorem truthful {fresh gone : ObjectId → Prop}
    (hfresh : ∀ element ∈ elements, element.presence = .onlyNew → fresh element.id)
    (hgone : ∀ element ∈ elements, element.presence = .onlyOld → gone element.id)
    (hadded : ∀ {id}, old.contains id = false → new.contains id = true → fresh id)
    (hremoved : ∀ {id}, old.contains id = true → new.contains id = false → gone id) :
    st.plan.Truthful fresh gone := by
  have hnew : new.WellFormed := h.initialNew ▸ h.initial.new
  refine h.edited.truthful h.initial.new
    (Plan.truthful_of_ofElements hnew h.selected hfresh hgone) ?_ ?_ <;>
    rw [h.initialOld, h.initialNew]
  · exact hadded
  · exact hremoved

/-- What elements that name the right sides create was not there, or comes back with its owner. -/
theorem created_of_agrees (helements : ∀ element ∈ elements, element.Agrees old new)
    {id : ObjectId} {entry : PlanEntry} (hentry : st.plan.get? id = some entry)
    (hcreate : entry.treatment = .create) :
    old.contains id = false ∨ id.kind.isSubElement = true ∧ st.plan.OwnerRecreated id := by
  have htruthful : st.plan.Truthful (fun id => old.contains id = false) fun _ => True :=
    h.truthful (fun element helement hpresence => Bool.eq_false_iff.2 fun hcontains =>
      (helements element helement).1.1 hcontains hpresence) (fun _ _ _ => trivial)
      (fun hnot _ => hnot) fun _ _ => trivial
  exact htruthful.create hentry hcreate

/-- What elements that name the right sides drop is gone. -/
theorem gone_of_agrees (helements : ∀ element ∈ elements, element.Agrees old new)
    {id : ObjectId} {entry : PlanEntry} (hentry : st.plan.get? id = some entry)
    (hdrop : entry.treatment = .drop) : new.contains id = false := by
  have htruthful : st.plan.Truthful (fun _ => True) fun id => new.contains id = false :=
    h.truthful (fun _ _ _ => trivial) (fun element helement hpresence => Bool.eq_false_iff.2
      fun hcontains => (helements element helement).2.1 hcontains hpresence)
      (fun _ _ => trivial) fun _ hgone => hgone
  exact htruthful.drop hentry hdrop

/-- The entries of the migration are those that its plan finds. -/
theorem mem_entries {entry : PlanEntry} :
    entry ∈ m.entries ↔ st.plan.get? entry.id = some entry := by
  rw [h.runs.entries]
  exact ⟨h.distinct.get?_of_mem, fun hfound => (Plan.get?_some hfound).1⟩

end Derives

end Migration

end SchemaMigration
