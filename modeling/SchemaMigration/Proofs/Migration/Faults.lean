import SchemaMigration.Proofs.Ddl.Alteration
import SchemaMigration.Proofs.Difference.Comparison
import SchemaMigration.Proofs.Migration.Actions
import SchemaMigration.Proofs.Plan.Alteration
import SchemaMigration.Proofs.Plan.Detachment

/-!
# What can go wrong with the differences of two snapshots

Comparing two snapshots of one dialect does not fail, and what the differences list is held by the
sides that it is said to be on. So on the way from there to a migration every look-up finds its
statement: a decision fails only for a kind of object that the dialect does not have
(`Plan.select_eq_error`), a plan whose treatments fit the snapshots has its steps, and breaking
their cycles fails only with a cycle that cannot be broken (`Staging.acyclicGraph_eq_error`). That
leaves the faults of `Migration.faults_of_differences`. Plans stay consistent all the while
(`Plan.Edited.consistent`).
-/

namespace SchemaMigration

/-! ## Decisions -/

namespace Dialect

variable {dialect : Dialect} {s t : Statement}

/-- No dialect fails to alter an object of a kind that it has. -/
theorem exists_alter (hkind : dialect.supports t.kind = true) :
    ∃ alteration, dialect.alter s t = .ok alteration := by
  cases dialect with
  | postgres => exact ⟨_, rfl⟩
  | msSql | clickHouse =>
    simp only [alter, Ddl.MsSql.alter, Ddl.ClickHouse.alter, hkind, Bool.not_true,
      Bool.false_eq_true, if_false]
    exact ⟨_, rfl⟩

variable {id : ObjectId} {before after : Option Statement}

/-- A decision has statements exactly if it alters the object in place. -/
theorem lists_iff_alters {decision : Decision}
    (h : dialect.decideOn id before after = .ok decision) :
    decision.statements ≠ [] ↔ decision.treatment.alters = true := by
  rcases decideOn_cases h with ⟨halters, hnone⟩ | ⟨_, _, alteration, -, -, -, halter, rfl⟩
  · simp [halters, hnone]
  · obtain ⟨changes, rfl⟩ := exists_changes_of_alter halter
    exact Decision.lists_iff_alters changes

/-- A decision on an object that is there, with one kind of definition, fails only if the dialect
has no objects of its kind. -/
theorem decideOn_eq_error {fault : MigrationError}
    (h : dialect.decideOn id before after = .error fault)
    (hthere : before.isSome = true ∨ after.isSome = true)
    (hkinds : ∀ s t, before = some s → after = some t → s.definition.kind = t.definition.kind)
    (hid : ∀ t, after = some t → t.id = id) :
    dialect.supports id.kind = false ∧ fault = .unsupportedKind dialect id.kind := by
  unfold decideOn at h
  split at h
  · next hsupports => exact ⟨by simpa using hsupports, (Except.error.inj h).symm⟩
  · next hsupports =>
    rw [Bool.not_eq_true', Bool.not_eq_false] at hsupports
    split at h
    · cases h
    · cases h
    · next s t =>
      rw [if_neg (not_not.2 (hkinds s t rfl rfl))] at h
      split at h
      · cases h
      · obtain ⟨alteration, halter⟩ := exists_alter (s := s)
          (show dialect.supports t.kind = true by rwa [Statement.kind, hid t rfl])
        rw [halter] at h
        cases h
    · simp at hthere

end Dialect

/-- The statements of an element are found if the sides hold it that it is said to be on, at least
one of them. -/
theorem Element.Held.exists_statements {old new : Snapshot} {element : Element}
    (h : element.Held old new) : ∃ before after, element.statements old new = .ok (before, after) ∧
      (before.isSome = true ∨ after.isSome = true) := by
  have hold : element.presence ≠ .onlyNew → ∃ s, old.require element.id .old = .ok s := fun hne =>
    (Snapshot.contains_iff.1 (h.old hne)).imp fun _ => Snapshot.require_eq_ok.2
  have hnew : element.presence ≠ .onlyOld → ∃ s, new.require element.id .new = .ok s := fun hne =>
    (Snapshot.contains_iff.1 (h.new hne)).imp fun _ => Snapshot.require_eq_ok.2
  unfold Element.statements
  cases hpresence : element.presence with
  | onlyOld =>
    obtain ⟨s, hs⟩ := hold (by simp [hpresence])
    rw [hs]
    exact ⟨some s, none, rfl, .inl rfl⟩
  | onlyNew =>
    obtain ⟨t, ht⟩ := hnew (by simp [hpresence])
    rw [ht]
    exact ⟨none, some t, rfl, .inr rfl⟩
  | both =>
    obtain ⟨s, hs⟩ := hold (by simp [hpresence])
    obtain ⟨t, ht⟩ := hnew (by simp [hpresence])
    rw [hs, ht]
    exact ⟨some s, some t, rfl, .inl rfl⟩

/-! ## Plans -/

namespace Plan

variable {plan next : Plan} {extra : List DependencyPair}

/-- Selecting an element that is held by the sides that it is said to be on fails only if the
dialect has no objects of its kind. -/
theorem select_eq_error {element : Element} {order : Nat} {fault : MigrationError}
    (h : plan.select element order = .error fault) (hheld : element.Held plan.old plan.new)
    (hold : plan.old.Typed) (hnew : plan.new.Typed) :
    plan.new.dialect.supports element.id.kind = false ∧
      fault = .unsupportedKind plan.new.dialect element.id.kind := by
  obtain ⟨before, after, hstatements, hthere⟩ := hheld.exists_statements
  obtain ⟨hbefore, hafter⟩ := Element.get?_of_statements hstatements
  unfold select at h
  split at h
  · cases h
  · rw [hstatements, ok_bind] at h
    dsimp only at h
    cases hdecision : plan.new.dialect.decideOn element.id before after with
    | error e =>
      rw [hdecision] at h
      obtain rfl := Except.error.inj h
      refine Dialect.decideOn_eq_error hdecision hthere (fun s t hs ht => ?_) fun t ht => ?_
      · exact (hold.kind_eq (hbefore s hs)).trans (hnew.kind_eq (hafter t ht)).symm
      · exact (Snapshot.get?_some (hafter t ht)).2
    | ok decision =>
      rw [hdecision, ok_bind] at h
      split at h <;> cases h

/-- The plan of elements that are held by the sides that they are said to be on fails only if the
dialect has no objects of some kind. -/
theorem ofElements_eq_error {old new : Snapshot} {elements : List Element} {fault : MigrationError}
    (h : ofElements old new elements = .error fault)
    (hheld : ∀ element ∈ elements, element.Held old new) (hold : old.Typed) (hnew : new.Typed) :
    ∃ kind, new.dialect.supports kind = false ∧ fault = .unsupportedKind new.dialect kind := by
  obtain ⟨⟨element, order⟩, hin, plan, ⟨rfl, rfl⟩, hfault⟩ :=
    exists_of_foldlM_eq_error_of_preserved (fun plan : Plan => plan.old = old ∧ plan.new = new) h
      ⟨rfl, rfl⟩ fun _ _ plan next hplan hselect => by
        rcases select_eq_ok hselect with ⟨rfl, -⟩ | ⟨-, _, -, -, rfl⟩ <;> exact hplan
  have hmem : element ∈ elements := (List.mem_zipIdx' hin).2 ▸ List.getElem_mem _
  exact ⟨_, select_eq_error hfault (hheld element hmem) hold hnew⟩

/-- A plan is consistent: no identity has two entries, every treatment fits the snapshots, and an
entry has statements exactly if its object is altered in place. -/
structure Consistent (plan : Plan) : Prop where
  distinct : plan.Distinct
  grounded : plan.Grounded
  lists : ∀ id entry, plan.get? id = some entry →
    (entry.statements ≠ [] ↔ entry.treatment.alters = true)

/-- The plan of elements has statements for exactly what is altered in place. -/
theorem lists_of_ofElements {old new : Snapshot} {elements : List Element}
    (h : ofElements old new elements = .ok plan) :
    ∀ entry ∈ plan.entries, entry.statements ≠ [] ↔ entry.treatment.alters = true := by
  refine foldlM_preserves (fun plan : Plan => ∀ entry ∈ plan.entries,
    entry.statements ≠ [] ↔ entry.treatment.alters = true) h (fun _ hentry => by cases hentry) ?_
  rintro ⟨element, order⟩ - plan next hplan hselect
  rcases select_spec hselect with ⟨-, rfl⟩ | ⟨-, before, after, decision, -, hdecision, rfl⟩
  · exact hplan
  split
  · exact hplan
  · intro entry hentry
    rcases List.mem_append.1 hentry with hentry | hentry
    · exact hplan entry hentry
    · rw [List.mem_singleton.1 hentry]
      exact Dialect.lists_iff_alters hdecision

/-- The plan of elements is consistent. -/
theorem consistent_of_ofElements {old new : Snapshot} {elements : List Element}
    (hold : old.WellFormed) (hnew : new.WellFormed) (h : ofElements old new elements = .ok plan) :
    plan.Consistent := by
  obtain ⟨hinitial, -⟩ := initial_of_ofElements hold hnew h
  exact ⟨hinitial.distinct, hinitial.grounded,
    fun _ entry hentry => lists_of_ofElements h entry (get?_some hentry).1⟩

/-- Edits keep a plan consistent. -/
theorem Edited.consistent (h : Edited extra plan next) (hnew : plan.new.WellFormed)
    (hplan : plan.Consistent) : next.Consistent := by
  refine ⟨h.distinct hplan.distinct, h.grounded hplan.grounded, fun id entry hentry => ?_⟩
  rcases h.entry_cases hnew hplan.grounded hentry with
    hfound | ⟨halters, hnone, -⟩ | ⟨htreatment, -, -, sql, -, hstatements⟩
  · exact hplan.lists id entry hfound
  · simp [halters, hnone]
  · simp [htreatment, hstatements, Treatment.alters]

/-- However many steps an expansion has made, its plan has been edited. -/
theorem Initial.edited_run (h : plan.Initial) (extra : List DependencyPair) (steps : Nat) :
    Edited extra plan (Expansion.run extra steps (.start plan)).plan :=
  (Expansion.run_spec (h.valid_start extra)).2

end Plan

/-! ## Cycles -/

/-- Breaking the cycles of a proper plan fails only with a cycle that cannot be broken. -/
theorem Staging.acyclicGraph_eq_error {plan : Plan} {extra : ExtraDependencies}
    {fault : MigrationError} (hplan : plan.Proper)
    (h : acyclicGraph { plan, extra } = .error fault) :
    ∃ component, fault = .ofCycle component := by
  have hbreaking : Breaking { plan, extra } {} (acyclicGraph { plan, extra }) :=
    breaking_acyclicGraph
  rw [h] at hbreaking
  obtain ⟨last, -, ⟨_, hgraph, -⟩ | ⟨graph, -, ⟨-, hdone⟩ | ⟨_, hstuck, heq⟩⟩⟩ :=
    hbreaking.exists_rounds
  · obtain ⟨graph, hgraph'⟩ : ∃ graph, stepGraph { plan, extra, breaks := last } = .ok graph :=
      exists_stepGraph hplan
    cases hgraph'.symm.trans hgraph
  · cases hdone
  · obtain rfl := Except.error.inj heq
    obtain ⟨component, -, _, hbroken⟩ := exists_of_foldlM_eq_error hstuck
    exact ⟨component, (StepGraph.breakComponent_eq_error hbroken).1⟩

namespace Migration

/-- The migration of a plan that expansion can start from fails only with a cycle. -/
theorem ofPlan_eq_error {plan : Plan} {extra : ExtraDependencies} {fault : MigrationError}
    (hplan : plan.Initial) (h : ofPlan plan extra = .error fault) :
    ∃ keys, fault = .ofCycle keys := by
  unfold ofPlan at h
  dsimp only at h
  cases hacyclic : Staging.acyclicGraph { plan := plan.expand extra.old, extra } with
  | error e =>
    rw [hacyclic] at h
    obtain rfl := Except.error.inj h
    exact Staging.acyclicGraph_eq_error (hplan.proper_expand extra.old) hacyclic
  | ok found =>
    obtain ⟨graph, breaks⟩ := found
    rw [hacyclic, ok_bind] at h
    dsimp only at h
    split at h
    · exact ⟨_, (Except.error.inj h).symm⟩
    · cases h

/-- Extra dependencies are refused only for what their snapshot does not hold. -/
theorem check_eq_error {old new : Snapshot} {extra : ExtraDependencies} {fault : MigrationError}
    (h : extra.check old new = .error fault) : ∃ id side, fault = .unresolvedReference id side := by
  unfold ExtraDependencies.check at h
  split at h
  · exact ⟨_, _, (Except.error.inj h).symm⟩
  · exact ⟨_, _, (Except.error.inj h).symm⟩
  · cases h

/-- **What can go wrong with the differences of two snapshots.** Two snapshots of one dialect can be
compared. A migration of the differences that a filter lets through fails only for a kind of object
that the dialect does not have, for a cycle, or for an extra dependency on what is not there. And
the plan is consistent from its start through all edits to each step that expansion makes. -/
theorem faults_of_differences {old new : Snapshot} (hold : old.WellFormed) (hnew : new.WellFormed)
    (htypedOld : old.Typed) (htypedNew : new.Typed) (hdialect : old.dialect = new.dialect)
    (filter : SelectionFilter) (extra : ExtraDependencies) :
    ∃ tree, Difference.ofSnapshots old new = .ok tree ∧
      (∀ fault, ofElements old new (tree.elements old new filter) extra = .error fault →
        (∃ kind, new.dialect.supports kind = false ∧ fault = .unsupportedKind new.dialect kind) ∨
        (∃ objects, fault = .unresolvableCycle objects) ∨
        ∃ id side, fault = .unresolvedReference id side ∧ extra.check old new = .error fault) ∧
      ∀ plan, Plan.ofElements old new (tree.elements old new filter) = .ok plan →
        (∀ next, Plan.Edited extra.old plan next →
          next.old = old ∧ next.new = new ∧ next.Consistent) ∧
        ∀ steps, Plan.Edited extra.old plan
          (Expansion.run extra.old steps (.start plan)).plan := by
  obtain ⟨left, right, tree?, hleft, hright, hcompare, tree, htree, hselected⟩ :=
    Difference.exists_ofSnapshots hold hnew htypedOld htypedNew hdialect
  have hheld : ∀ element ∈ tree.elements old new filter, element.Held old new := fun _ hmem =>
    Difference.held_of_mem_elements hold hnew hleft hright hcompare hselected hmem
  refine ⟨tree, htree, fun fault hfault => ?_, fun plan hplan => ?_⟩
  · unfold ofElements at hfault
    cases hchecked : extra.check old new with
    | error e =>
      rw [hchecked] at hfault
      obtain rfl := Except.error.inj hfault
      obtain ⟨id, side, rfl⟩ := check_eq_error hchecked
      exact .inr (.inr ⟨id, side, rfl, rfl⟩)
    | ok _ =>
      rw [hchecked, ok_bind] at hfault
      cases hplan : Plan.ofElements old new (tree.elements old new filter) with
      | error e =>
        rw [hplan] at hfault
        obtain rfl := Except.error.inj hfault
        exact .inl (Plan.ofElements_eq_error hplan hheld htypedOld htypedNew)
      | ok plan =>
        rw [hplan, ok_bind] at hfault
        obtain ⟨keys, rfl⟩ :=
          ofPlan_eq_error (Plan.initial_of_ofElements hold hnew hplan).1 hfault
        exact .inr (.inl ⟨_, rfl⟩)
  · obtain ⟨hinitial, rfl, rfl⟩ := Plan.initial_of_ofElements hold hnew hplan
    have hconsistent := Plan.consistent_of_ofElements hold hnew hplan
    refine ⟨fun next hedited => ?_, hinitial.edited_run extra.old⟩
    have hadvances := hedited.advances hnew
    exact ⟨hadvances.old, hadvances.new, hedited.consistent hnew hconsistent⟩

/-! ### A policy that the dialect does not have -/

namespace RefusedPolicy

/-- The table. -/
def table : ObjectId := .table "dbo" "t"

/-- The policy. -/
def policy : ObjectId := table.child .policy "p"

/-- The schema with the table, and maybe the policy. All fingerprints are made of one digest. -/
def snapshot (policies : List ObjectId) (digest : Digest) : Snapshot where
  dialect := .msSql
  statements :=
    [{ id := .database, parent := none, definition := .database,
       children := [⟨.schema, ["dbo"]⟩] },
     { id := ⟨.schema, ["dbo"]⟩, parent := some .database, definition := .schema {},
       children := [table] },
     { id := table, parent := some ⟨.schema, ["dbo"]⟩, definition := .table {},
       children := policies }] ++
    policies.map fun id => { id, parent := some table, definition := .policy {} }
  fingerprints := [.database, ⟨.schema, ["dbo"]⟩, table].map fun id =>
    (id, ⟨digest, digest, digest⟩)

/-- The schema before the policy was added. -/
def before : Snapshot := snapshot [] ⟨[0]⟩

/-- The schema with the policy. -/
def after : Snapshot := snapshot [policy] ⟨[1]⟩

/-- The fault of a migration is neither a cycle nor a reference. -/
def refuses : Except MigrationError Migration → Bool
  | .ok _ | .error (.unresolvableCycle _) | .error (.unresolvedReference ..) => false
  | .error _ => true

/-- The new policy can be compared, but not migrated, since the dialect has none. -/
theorem policy_refused : ∃ tree, Difference.ofSnapshots before after = .ok tree ∧
    ∃ kind, Dialect.msSql.supports kind = false ∧
      ofElements before after (tree.elements before after {}) {} =
        .error (.unsupportedKind .msSql kind) := by
  obtain ⟨tree, htree, hfaults, -⟩ := faults_of_differences
    (show before.WellFormed by decide +kernel)
    (show after.WellFormed by decide +kernel) (by decide +kernel) (by decide +kernel) rfl {} {}
  obtain ⟨computed, hcomputed, htest⟩ := exists_ok_of_test (p := fun tree : Difference =>
      refuses (ofElements before after (tree.elements before after {}) {}))
    (show (Difference.ofSnapshots before after).toOption.any _ = true by decide +kernel)
  obtain rfl := Except.ok.inj (htree.symm.trans hcomputed)
  refine ⟨tree, htree, ?_⟩
  cases hresult : ofElements before after (tree.elements before after {}) {} with
  | ok m => rw [hresult] at htest; cases htest
  | error fault =>
    rw [hresult] at htest
    rcases hfaults fault hresult with ⟨kind, hkind, rfl⟩ | ⟨_, rfl⟩ | ⟨_, _, rfl, -⟩
    · exact ⟨kind, hkind, rfl⟩
    · cases htest
    · cases htest

end RefusedPolicy

end Migration

end SchemaMigration
