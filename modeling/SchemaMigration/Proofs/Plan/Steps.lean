import Mathlib.Data.List.Nodup
import SchemaMigration.Plan.Cycle
import SchemaMigration.Proofs.Plan.Entries
import SchemaMigration.Proofs.Snapshot.Tree
import SchemaMigration.Proofs.Success

/-!
# The steps of a plan

Which steps a plan has follows from its entries alone: an entry has a step of a kind if its
treatment asks for one and the object does not travel with its table (`Staging.asks`). The steps
that detached constraints have beside their tables are the rest of them
(`Staging.key_mem_detachedSteps`). No two of all these steps have one key
(`Staging.nodup_allSteps`), and each is about the statement that its key names
(`Staging.statement?_of_mem_allSteps`).
-/

namespace SchemaMigration

/-! ## Sets of identities -/

/-- Erasing duplicates leaves each element once. -/
theorem nodup_eraseDups {α : Type} [BEq α] [LawfulBEq α] : ∀ l : List α, l.eraseDups.Nodup
  | [] => by simp
  | a :: l => by
    rw [List.eraseDups_cons, List.nodup_cons]
    exact ⟨by simp [List.mem_eraseDups], nodup_eraseDups _⟩
termination_by l => l.length
decreasing_by exact Nat.lt_succ_of_le (List.length_filter_le _ _)

/-- Putting an identity in its place adds it. -/
theorem ObjectId.perm_insertSorted (id : ObjectId) :
    ∀ ids, (ObjectId.insertSorted id ids).Perm (id :: ids)
  | [] => .refl _
  | other :: rest => by
    unfold insertSorted
    split
    · exact .refl _
    · exact ((perm_insertSorted id rest).cons other).trans (.swap id other rest)

/-- Sorting keeps the elements. -/
theorem ObjectId.perm_sortedSet (ids : List ObjectId) :
    (ObjectId.sortedSet ids).Perm ids.eraseDups := by
  unfold sortedSet
  induction ids.eraseDups with
  | nil => exact .refl _
  | cons id ids ih => exact (perm_insertSorted id _).trans (ih.cons id)

/-- A sorted set has the elements that it was made of. -/
theorem ObjectId.mem_sortedSet {ids : List ObjectId} {id : ObjectId} :
    id ∈ ObjectId.sortedSet ids ↔ id ∈ ids := by
  rw [(perm_sortedSet ids).mem_iff, List.mem_eraseDups]

/-- A sorted set holds each element once. -/
theorem ObjectId.nodup_sortedSet {ids : List ObjectId} : (ObjectId.sortedSet ids).Nodup :=
  (perm_sortedSet ids).nodup_iff.2 (nodup_eraseDups ids)

/-! ## Keys of steps -/

/-- Whether a treatment asks for a step of a kind. -/
def Treatment.asks (treatment : Treatment) : StepKind → Bool
  | .drop => treatment.drops
  | .create => treatment.creates
  | .alter => treatment.alters
  | .passThrough => false

/-- The kind of step of a table that goes for its columns too: the drop of a table takes the place
of their drops, its creation that of their creations and alterations. -/
def StepKind.ofTable : StepKind → StepKind
  | .drop => .drop
  | _ => .create

/-- Some steps have a step of a key if they list one. -/
theorem Steps.has_iff {steps : List Step} {key : StepKey} :
    Steps.has steps key = true ↔ key ∈ steps.map (·.key) := by
  simp [Steps.has]

namespace Staging

variable {st : Staging}

/-- The snapshot that the statements of a kind of steps are from: the old one for drops. -/
def side (st : Staging) : StepKind → Snapshot
  | .drop => st.plan.old
  | _ => st.plan.new

/-- The statement that a step is about. -/
def statement? (st : Staging) (key : StepKey) : Option Statement :=
  (st.side key.kind).get? key.id

/-! ## Steps of entries -/

/-- Whether an entry has a step of a kind. -/
def asks (st : Staging) (entry : PlanEntry) : StepKind → Bool
  | .drop =>
    entry.treatment.drops && !(st.plan.droppedWithTable entry.id && st.travels entry.id)
  | .create =>
    entry.treatment.creates && !(st.plan.createdWithTable entry.id && st.travels entry.id)
  | .alter =>
    entry.treatment.alters && !(st.plan.createdWithTable entry.id && st.travels entry.id)
  | .passThrough => false

/-- Whether the table of a sub-element has a treatment that can spare the sub-element a step of a
kind: a drop for a drop, a creation for a creation or an alteration. -/
def spared (st : Staging) (id : ObjectId) : StepKind → Bool
  | .drop => st.plan.droppedWithTable id
  | _ => st.plan.createdWithTable id

/-- An entry has a step if its treatment asks for one, unless the object travels with its table and
the table spares it the step. -/
theorem asks_iff {entry : PlanEntry} {kind : StepKind} :
    st.asks entry kind = true ↔ entry.treatment.asks kind = true ∧
      ¬ (st.spared entry.id kind = true ∧ st.travels entry.id = true) := by
  cases kind <;> simp only [asks, Treatment.asks, spared, Bool.and_eq_true, Bool.not_eq_true',
    ← Bool.not_eq_true, Bool.false_eq_true, false_and]

/-- What is no sub-element is spared no step. -/
theorem not_spared {id : ObjectId} (hsub : id.kind.isSubElement = false) (kind : StepKind) :
    st.spared id kind = false := by
  cases kind <;> simp [spared, Plan.droppedWithTable, Plan.createdWithTable, hsub]

/-- An object is spared a step if it is a sub-element whose parent is treated accordingly. -/
theorem spared_iff {id : ObjectId} {kind : StepKind} (hside : (st.side kind).WellFormed)
    (hid : (st.side kind).contains id = true) :
    st.spared id kind = true ↔
      id.kind.isSubElement = true ∧ ∃ owner, (st.side kind).parent? id = some owner ∧
        ∃ entry, st.plan.get? owner = some entry ∧
          entry.treatment.asks kind.ofTable = true := by
  cases kind with
  | drop => exact Plan.droppedWithTable_iff hside hid
  | create | alter | passThrough => exact Plan.createdWithTable_iff hside hid

/-- The keys that an entry asks for. -/
def askedKeys (st : Staging) (entry : PlanEntry) : List StepKey :=
  ([StepKind.drop, .create, .alter].filter (st.asks entry)).map fun kind => ⟨kind, entry.id⟩

/-- An entry has a step for every key that it asks for, about the statement of that key. -/
theorem entrySteps_eq_ok {entry : PlanEntry} {steps : List Step}
    (h : st.entrySteps entry = .ok steps) :
    steps.map (·.key) = st.askedKeys entry ∧
      ∀ step ∈ steps, st.statement? step.key = some step.statement := by
  simp only [entrySteps] at h
  generalize hd : (entry.treatment.drops && _) = drops at h
  generalize hc : (entry.treatment.creates && _) = creates at h
  generalize ha : (entry.treatment.alters && _) = alters at h
  replace hd : st.asks entry .drop = drops := hd
  replace hc : st.asks entry .create = creates := hc
  replace ha : st.asks entry .alter = alters := ha
  cases drops <;> cases creates <;> cases alters <;>
    simp only [if_true, if_false, Bool.false_eq_true, bind_eq_ok, pure_bind,
      Snapshot.require_eq_ok] at h
  all_goals
    first
    | obtain rfl := Except.ok.inj h
    | obtain ⟨s, hs, h⟩ := h
      first
      | obtain rfl := Except.ok.inj h
      | obtain ⟨t, ht, h⟩ := h
        first
        | obtain rfl := Except.ok.inj h
        | obtain ⟨u, hu, h⟩ := h
          obtain rfl := Except.ok.inj h
  all_goals simp_all [askedKeys, statement?, side]

/-- The planned steps are those that the entries ask for, in the order of the plan. -/
theorem plannedSteps_eq_ok {planned : List Step} (h : st.plannedSteps = .ok planned) :
    planned.map (·.key) = st.plan.entries.flatMap st.askedKeys ∧
      ∀ step ∈ planned, st.statement? step.key = some step.statement := by
  rw [plannedSteps, bind_eq_ok] at h
  obtain ⟨parts, hparts, h⟩ := h
  obtain rfl := Except.ok.inj h
  have hall := mapM_eq_ok.1 hparts
  clear h hparts
  generalize st.plan.entries = entries at hall ⊢
  induction hall with
  | nil => simp
  | cons hsteps _ ih =>
    obtain ⟨hkeys, hstatements⟩ := entrySteps_eq_ok hsteps
    rw [List.flatten_cons, List.map_append, List.flatMap_cons, hkeys, ih.1]
    exact ⟨rfl, fun step hstep => (List.mem_append.1 hstep).elim (hstatements step) (ih.2 step)⟩

section
variable {planned : List Step} (h : st.plannedSteps = .ok planned)
include h

/-- A step of a kind is planned for an object if its entry asks for one. -/
theorem key_mem_planned {key : StepKey} :
    key ∈ planned.map (·.key) ↔
      ∃ entry ∈ st.plan.entries, entry.id = key.id ∧ st.asks entry key.kind = true := by
  rw [(plannedSteps_eq_ok h).1]
  obtain ⟨kind, id⟩ := key
  simp only [List.mem_flatMap, askedKeys, List.mem_map, List.mem_filter, StepKey.mk.injEq]
  constructor
  · rintro ⟨entry, hentry, _, ⟨-, hasks⟩, rfl, rfl⟩
    exact ⟨entry, hentry, rfl, hasks⟩
  · rintro ⟨entry, hentry, rfl, hasks⟩
    refine ⟨entry, hentry, kind, ⟨?_, hasks⟩, rfl, rfl⟩
    cases kind with
    | passThrough => simp [asks] at hasks
    | _ => simp

/-- No two planned steps have one key if no two entries have one identity. -/
theorem nodup_planned (hentries : (st.plan.entries.map (·.id)).Nodup) :
    (planned.map (·.key)).Nodup := by
  rw [(plannedSteps_eq_ok h).1, List.nodup_flatMap]
  constructor
  · intro entry _
    refine List.Nodup.map (fun _ _ heq => (StepKey.mk.inj heq).1) ?_
    exact List.Nodup.filter _ (by decide)
  · refine (List.pairwise_map.1 hentries).imp fun {a b} hab key ha hb => hab ?_
    obtain ⟨_, -, rfl⟩ := List.mem_map.1 ha
    obtain ⟨_, -, heq⟩ := List.mem_map.1 hb
    exact (StepKey.mk.inj heq).2.symm

/-! ## Steps of detached constraints -/

omit h in
/-- A step beside that of a table is about the statement of its key. -/
theorem mem_stepBeside {kind : StepKind} {id : ObjectId} {step : Step} {snapshot : Snapshot}
    (hstep : step ∈ stepBeside planned kind snapshot id) :
    step.key = ⟨kind, id⟩ ∧ snapshot.get? id = some step.statement := by
  unfold stepBeside at hstep
  split at hstep
  · next s _ hs _ =>
    split at hstep
    · cases hstep
    · obtain rfl := List.mem_singleton.1 hstep
      exact ⟨rfl, hs⟩
  · cases hstep

omit h in
/-- A step stands beside that of a table if the table has one and the object has none itself. -/
theorem key_mem_stepBeside {kind : StepKind} {id : ObjectId} {key : StepKey}
    {snapshot : Snapshot} :
    key ∈ (stepBeside planned kind snapshot id).map (·.key) ↔
      key = ⟨kind, id⟩ ∧ snapshot.contains id = true ∧
        ⟨kind, snapshot.topLevel id⟩ ∈ planned.map (·.key) ∧ key ∉ planned.map (·.key) := by
  rw [Snapshot.contains_iff, stepBeside]
  have hfind : (∃ table, planned.find? (·.key == ⟨kind, snapshot.topLevel id⟩) = some table) ↔
      ⟨kind, snapshot.topLevel id⟩ ∈ planned.map (·.key) := by
    rw [← Option.isSome_iff_exists, List.find?_isSome]
    simp
  rw [← hfind]
  split
  · next s table hs htable =>
    simp only [hs, htable, Option.some.injEq, exists_eq', true_and]
    cases hhas : Steps.has planned ⟨kind, id⟩ with
    | true =>
      have := Steps.has_iff.1 hhas
      simp only [if_true, List.map_nil, List.not_mem_nil, false_iff]
      rintro ⟨rfl, hnot⟩
      exact hnot this
    | false =>
      have : ⟨kind, id⟩ ∉ planned.map (·.key) := fun hin => by simp [Steps.has_iff.2 hin] at hhas
      simp only [Bool.false_eq_true, if_false, List.map_cons, List.map_nil, List.mem_singleton]
      exact ⟨fun heq => ⟨heq, heq ▸ this⟩, And.left⟩
  · next hnone =>
    simp only [List.map_nil, List.not_mem_nil, false_iff]
    rintro ⟨-, ⟨s, hs⟩, ⟨table, htable⟩, -⟩
    exact hnone s table hs htable

omit h in
/-- The keys of the steps of detached constraints. -/
theorem key_mem_detachedSteps {key : StepKey} :
    key ∈ (st.detachedSteps planned).map (·.key) ↔
      key.id ∈ st.breaks.detached ∧ (key.kind = .create ∨ key.kind = .drop) ∧
        (st.side key.kind).contains key.id = true ∧
        ⟨key.kind, (st.side key.kind).topLevel key.id⟩ ∈ planned.map (·.key) ∧
        key ∉ planned.map (·.key) := by
  obtain ⟨kind, id⟩ := key
  simp only [detachedSteps, List.map_flatMap, List.mem_flatMap, List.map_append, List.mem_append,
    key_mem_stepBeside, ObjectId.mem_sortedSet]
  constructor
  · rintro ⟨id, hid, ⟨heq, hrest⟩ | ⟨heq, hrest⟩⟩ <;> obtain ⟨rfl, rfl⟩ := StepKey.mk.inj heq
    · exact ⟨hid, .inl rfl, hrest⟩
    · exact ⟨hid, .inr rfl, hrest⟩
  · rintro ⟨hid, rfl | rfl, hrest⟩
    · exact ⟨id, hid, .inl ⟨rfl, hrest⟩⟩
    · exact ⟨id, hid, .inr ⟨rfl, hrest⟩⟩

omit h in
/-- A constraint with a step beside its table stands under the table, which has a planned step of
that kind. -/
theorem exists_owner_of_detached {key : StepKey}
    (hkey : key ∈ (st.detachedSteps planned).map (·.key))
    (hside : (st.side key.kind).WellFormed) :
    key.id.kind.isSubElement = true ∧ ∃ owner, (st.side key.kind).parent? key.id = some owner ∧
      ⟨key.kind, owner⟩ ∈ planned.map (·.key) := by
  obtain ⟨-, -, hthere, htable, hnot⟩ := key_mem_detachedSteps.1 hkey
  cases hsub : key.id.kind.isSubElement with
  | false =>
    rw [Snapshot.topLevel_of_not_isSubElement hsub] at htable
    exact absurd htable hnot
  | true =>
    obtain ⟨owner, hp⟩ := hside.exists_parent? hthere fun heq => by rw [heq] at hsub; cases hsub
    rw [hside.topLevel_of_parent? hsub hp] at htable
    exact ⟨rfl, owner, hp, htable⟩

omit h in
/-- No two steps of detached constraints have one key. -/
theorem nodup_detachedSteps : ((st.detachedSteps planned).map (·.key)).Nodup := by
  have hbeside : ∀ {kind id snapshot},
      ((stepBeside planned kind snapshot id).map (·.key)).Nodup := by
    intro kind id snapshot
    unfold stepBeside
    split
    · split <;> simp
    · simp
  rw [detachedSteps, List.map_flatMap, List.nodup_flatMap]
  constructor
  · intro id _
    rw [List.map_append]
    refine hbeside.append hbeside fun key hcreate hdrop => ?_
    have := (key_mem_stepBeside.1 hcreate).1.symm.trans (key_mem_stepBeside.1 hdrop).1
    cases this
  · refine ObjectId.nodup_sortedSet.imp fun {a b} hab key ha hb => hab ?_
    have hid : ∀ {id}, key ∈ (stepBeside planned .create st.plan.new id ++
        stepBeside planned .drop st.plan.old id).map (·.key) → key.id = id := by
      intro id hkey
      rw [List.map_append, List.mem_append] at hkey
      rcases hkey with hkey | hkey <;> rw [(key_mem_stepBeside.1 hkey).1]
    exact (hid ha).symm.trans (hid hb)

/-! ## All steps -/

omit h in
/-- The steps of a plan but for the pass-through steps. -/
def allSteps (st : Staging) (planned : List Step) : List Step :=
  planned ++ st.detachedSteps planned

/-- No two steps have one key. -/
theorem nodup_allSteps (hentries : (st.plan.entries.map (·.id)).Nodup) :
    ((st.allSteps planned).map (·.key)).Nodup := by
  rw [allSteps, List.map_append]
  exact (nodup_planned h hentries).append nodup_detachedSteps fun _ hkey hdetached =>
    (key_mem_detachedSteps.1 hdetached).2.2.2.2 hkey

/-- Every step is about the statement that its key names. -/
theorem statement?_of_mem_allSteps {step : Step} (hstep : step ∈ st.allSteps planned) :
    st.statement? step.key = some step.statement := by
  rcases List.mem_append.1 hstep with hstep | hstep
  · exact (plannedSteps_eq_ok h).2 step hstep
  · obtain ⟨id, -, hstep⟩ := List.mem_flatMap.1 hstep
    rcases List.mem_append.1 hstep with hstep | hstep <;>
      obtain ⟨hkey, hs⟩ := mem_stepBeside hstep <;> rw [statement?, hkey] <;> exact hs

/-- Steps change something. -/
theorem kind_ne_passThrough {key : StepKey} (hkey : key ∈ (st.allSteps planned).map (·.key)) :
    key.kind ≠ .passThrough := by
  rw [allSteps, List.map_append, List.mem_append] at hkey
  intro hpass
  rcases hkey with hkey | hkey
  · obtain ⟨_, -, -, hasks⟩ := (key_mem_planned h).1 hkey
    simp [hpass, asks] at hasks
  · obtain ⟨-, hkind, -⟩ := key_mem_detachedSteps.1 hkey
    simp [hpass] at hkind

end

end Staging

end SchemaMigration
