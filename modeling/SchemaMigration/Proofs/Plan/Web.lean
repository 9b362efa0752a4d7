import SchemaMigration.Proofs.Plan.Precedence
import SchemaMigration.Proofs.Plan.StepGraph

/-!
# Where precedences come from

A precedence of a graph of steps that does not run through a pass-through step was asked for by one
of the steps (`Staging.Asked`): by a step that creates or alters for what its object needs, by a
creation for the drops before it, by an alteration for what its object no longer needs, or by a
drop. Collecting the precedences of all steps adds these and soft ones only (`Staging.mem_web_iff`),
and keeps the web in good order (`Staging.Web.Orderly`): each object has at most one pass-through
step, precedences are between steps, and none that was severed comes back. So the graph of a plan is
sound (`Staging.sound_of_stepGraph`).
-/

namespace SchemaMigration

namespace Staging

variable {st : Staging} {planned : List Step}

/-! ## Installing and removing steps -/

/-- The cases of the step that brings an object to its new form. -/
theorem installer?_eq_some {steps : List Step} {id : ObjectId} {key : StepKey} {reason : Reason} :
    st.installer? steps id = some (key, reason) ↔
      (key = ⟨.create, id⟩ ∧ reason = .hard ∧ key ∈ steps.map (·.key)) ∨
      (key = ⟨.alter, id⟩ ∧ reason = .hard ∧ ⟨.create, id⟩ ∉ steps.map (·.key) ∧
        key ∈ steps.map (·.key)) ∨
      key = ⟨.create, st.plan.new.topLevel id⟩ ∧
        reason = (if id.kind = .constraint then .inline id else .hard) ∧
        ⟨.create, id⟩ ∉ steps.map (·.key) ∧ ⟨.alter, id⟩ ∉ steps.map (·.key) ∧
        id.kind.isSubElement = true ∧ st.travels id = true ∧ key ∈ steps.map (·.key) := by
  simp only [installer?, ← Steps.has_iff]
  cases hcreate : Steps.has steps ⟨.create, id⟩ with
  | true =>
    simp only [if_true, Option.some.injEq, Prod.mk.injEq, not_true_eq_false, false_and, and_false,
      or_false]
    constructor
    · rintro ⟨rfl, rfl⟩
      exact ⟨rfl, rfl, hcreate⟩
    · rintro ⟨rfl, rfl, -⟩
      exact ⟨rfl, rfl⟩
  | false =>
    cases halter : Steps.has steps ⟨.alter, id⟩ with
    | true =>
      simp only [Bool.false_eq_true, if_false, if_true, Option.some.injEq, Prod.mk.injEq,
        not_true_eq_false, not_false_eq_true, true_and, false_and, and_false, or_false]
      constructor
      · rintro ⟨rfl, rfl⟩
        exact .inr ⟨rfl, rfl, halter⟩
      · rintro (⟨rfl, -, hin⟩ | ⟨rfl, rfl, -⟩)
        · rw [hcreate] at hin
          cases hin
        · exact ⟨rfl, rfl⟩
    | false =>
      simp only [Bool.false_eq_true, if_false, not_false_eq_true, true_and]
      constructor
      · intro h
        split at h
        · next hcond =>
          simp only [Bool.and_eq_true] at hcond
          obtain ⟨rfl, rfl⟩ := Prod.mk.inj (Option.some.inj h)
          exact .inr (.inr ⟨rfl, rfl, hcond.1.1, hcond.1.2, hcond.2⟩)
        · cases h
      · rintro (⟨rfl, -, hin⟩ | ⟨rfl, -, hin⟩ | ⟨rfl, rfl, hsub, htravels, hin⟩)
        · rw [hcreate] at hin
          cases hin
        · rw [halter] at hin
          cases hin
        · simp [hsub, htravels, hin]

/-- The cases of the step that drops an object. -/
theorem remover?_eq_some {steps : List Step} {id : ObjectId} {key : StepKey} :
    st.remover? steps id = some key ↔
      (key = ⟨.drop, id⟩ ∧ key ∈ steps.map (·.key)) ∨
      key = ⟨.drop, st.plan.old.topLevel id⟩ ∧ ⟨.drop, id⟩ ∉ steps.map (·.key) ∧
        id.kind.isSubElement = true ∧ st.travels id = true ∧ key ∈ steps.map (·.key) := by
  simp only [remover?, ← Steps.has_iff]
  cases hdrop : Steps.has steps ⟨.drop, id⟩ with
  | true =>
    simp only [if_true, Option.some.injEq, not_true_eq_false, false_and, and_false, or_false]
    constructor
    · rintro rfl
      exact ⟨rfl, hdrop⟩
    · rintro ⟨rfl, -⟩
      rfl
  | false =>
    simp only [Bool.false_eq_true, if_false, not_false_eq_true, true_and]
    constructor
    · intro h
      split at h
      · next hcond =>
        simp only [Bool.and_eq_true] at hcond
        obtain rfl := Option.some.inj h
        exact .inr ⟨rfl, hcond.1.1, hcond.1.2, hcond.2⟩
      · cases h
    · rintro (⟨rfl, hin⟩ | ⟨rfl, hsub, htravels, hin⟩)
      · rw [hdrop] at hin
        cases hin
      · simp [hsub, htravels, hin]

/-! ## What steps ask for -/

/-- The children whose dependencies the creation of an object takes over. -/
def createdChildren (st : Staging) (key : StepKey) : List Statement :=
  if key.kind = .create then st.plan.new.children key.id else []

/-- What a step creates or alters needs another object, from outside. The need may be on account of
a constraint that the step takes over. -/
structure Brings (st : Staging) (step : Step) (constraint : Option ObjectId) (need : ObjectId) :
    Prop where
  kind : step.key.kind = .create ∨ step.key.kind = .alter
  needs : ∃ s, (s, constraint) ∈ st.carried step.statement (st.createdChildren step.key) ∧
    need ∈ st.newNeeds s
  outside : need ≠ step.key.id ∧ st.plan.new.isDescendant need step.key.id = false

/-- The precedences that the steps of a plan ask for. -/
inductive Asked (st : Staging) (planned : List Step) : Precedence → Prop
  /-- An object comes to its new form after what it needs. -/
  | need {step : Step} {constraint : Option ObjectId} {need : ObjectId} {earlier : StepKey}
      {reason : Reason} (mem : step ∈ st.allSteps planned) (brings : st.Brings step constraint need)
      (installed : st.installer? (st.allSteps planned) need = some (earlier, reason))
      (apart : earlier ≠ step.key) :
      Asked st planned ⟨earlier, step.key, (constraint.map Reason.inline).getD reason⟩
  /-- An object is created after its parent and after drops. -/
  | afterDrops {step : Step} {p : Precedence} (mem : step ∈ st.allSteps planned)
      (creates : step.key.kind = .create)
      (after : p ∈ st.afterDrops (st.allSteps planned) planned step) : Asked st planned p
  /-- An object is altered before what it no longer needs is dropped. -/
  | released {step : Step} {p : Precedence} (mem : step ∈ st.allSteps planned)
      (alters : step.key.kind = .alter)
      (before : p ∈ st.beforeReleased (st.allSteps planned) step) : Asked st planned p
  /-- An object is dropped before what it needed. -/
  | removal {step : Step} {p : Precedence} (mem : step ∈ st.allSteps planned)
      (drops : step.key.kind = .drop) (before : p ∈ st.removal (st.allSteps planned) step) :
      Asked st planned p

/-- The constraints on whose account a precedence may be: those that travel with a table and that
one of the snapshots holds. -/
def Carries (st : Staging) (id : ObjectId) : Prop :=
  id.kind = .constraint ∧ st.travels id = true ∧
    (st.plan.old.contains id = true ∨ st.plan.new.contains id = true)

/-- A constraint on whose account a statement is carried is one of the children that travel. -/
theorem exists_child_of_mem_carried {s t : Statement} {children : List Statement} {id : ObjectId}
    (h : (t, some id) ∈ st.carried s children) :
    t ∈ children ∧ t.id = id ∧ id.kind = .constraint ∧ st.travels id = true := by
  rcases List.mem_cons.1 h with heq | hmap
  · cases (Prod.mk.inj heq).2
  · obtain ⟨child, hchild, heq⟩ := List.mem_map.1 hmap
    obtain ⟨rfl, hid⟩ := Prod.mk.inj heq
    split at hid
    · next hkind =>
      obtain rfl := Option.some.inj hid
      obtain ⟨hmem, htravels⟩ := List.mem_filter.1 hchild
      exact ⟨hmem, rfl, hkind, htravels⟩
    · cases hid

/-- An installer is a step; it is that of a table on account of a constraint if the reason says
so. -/
theorem installer?_spec {id : ObjectId} {key : StepKey} {reason : Reason}
    (h : st.installer? (st.allSteps planned) id = some (key, reason)) :
    key ∈ (st.allSteps planned).map (·.key) ∧ reason ≠ .soft ∧
      ∀ constraint, reason = .inline constraint → st.Carries constraint := by
  rcases installer?_eq_some.1 h with ⟨-, rfl, hin⟩ | ⟨-, rfl, -, hin⟩ |
    ⟨rfl, rfl, hcreate, -, -, htravels, hin⟩
  · exact ⟨hin, by simp, by simp⟩
  · exact ⟨hin, by simp, by simp⟩
  · refine ⟨hin, by split <;> simp, fun constraint heq => ?_⟩
    split at heq
    · next hkind =>
      obtain rfl := Reason.inline.inj heq
      refine ⟨hkind, htravels, .inr ?_⟩
      -- An object that is not in the snapshot would be its own nearest owner.
      rw [← Bool.not_eq_false]
      intro hnot
      rw [Snapshot.topLevel_of_not_contains hnot] at hin
      exact hcreate hin
    · cases heq

/-- What a drop asks for is that it runs before another step. -/
theorem removal_spec {step : Step} {p : Precedence}
    (hp : p ∈ st.removal (st.allSteps planned) step) :
    p.earlier = step.key ∧ p.later ∈ (st.allSteps planned).map (·.key) ∧ p.earlier ≠ p.later ∧
      p.reason ≠ .soft ∧ ∀ constraint, p.reason = .inline constraint → st.Carries constraint := by
  rcases mem_removal_iff.1 hp with
    ⟨s, constraint, need, later, hcarried, -, -, -, hlater, hne, rfl⟩ | ⟨parent, -, hhas, hne, rfl⟩
  · refine ⟨rfl, ?_, hne, by cases constraint <;> simp, ?_⟩
    · rcases hlater with hlater | ⟨rfl, hhas⟩
      · rcases remover?_eq_some.1 hlater with ⟨-, hin⟩ | ⟨-, -, -, -, hin⟩
        · exact hin
        · exact hin
      · exact Steps.has_iff.1 hhas
    · intro id heq
      cases constraint with
      | none => cases heq
      | some constraint =>
        obtain rfl := Reason.inline.inj heq
        obtain ⟨hchild, rfl, hkind, htravels⟩ := exists_child_of_mem_carried hcarried
        unfold droppedChildren at hchild
        split at hchild
        · cases hchild
        · have hmem := (List.mem_filter.1 hchild).1
          exact ⟨hkind, htravels, .inl (Snapshot.contains_of_mem_children hmem)⟩
  · exact ⟨rfl, Steps.has_iff.1 hhas, hne, by simp, by simp⟩

/-- A creation runs after the creation of the parent, after the drop of the object and after the
drops of all relations of its name. -/
theorem mem_afterDrops_iff {steps : List Step} {step : Step} {p : Precedence} :
    p ∈ st.afterDrops steps planned step ↔ ∃ earlier,
      ((((∃ parent, step.statement.parent = some parent ∧ earlier = ⟨.create, parent⟩) ∨
          earlier = ⟨.drop, step.key.id⟩) ∧ earlier ∈ steps.map (·.key)) ∨
        earlier ∈ planned.map (·.key) ∧ earlier.kind = .drop ∧
          step.key.id.relationKey?.isSome = true ∧
          earlier.id.relationKey? = step.key.id.relationKey?) ∧
        earlier ≠ step.key ∧ p = ⟨earlier, step.key, .hard⟩ := by
  rw [afterDrops, List.mem_flatMap]
  refine exists_congr fun earlier => and_congr ?_ ?_
  · rw [List.mem_append, List.mem_filter, List.mem_append, Steps.has_iff]
    refine or_congr (and_congr_left fun _ => or_congr ?_ List.mem_singleton) ?_
    · simp [eq_comm]
    · simp only [List.mem_map, List.mem_filter, Bool.and_eq_true, decide_eq_true_eq, beq_iff_eq]
      constructor
      · rintro ⟨other, ⟨hother, ⟨hdrop, hsome⟩, hsame⟩, rfl⟩
        exact ⟨⟨other, hother, rfl⟩, hdrop, hsome, hsame⟩
      · rintro ⟨⟨other, hother, rfl⟩, hdrop, hsome, hsame⟩
        exact ⟨other, ⟨hother, ⟨hdrop, hsome⟩, hsame⟩, rfl⟩
  · rw [mem_precede_iff]
    exact ⟨fun h => ⟨h.2.1, h.1⟩, fun h => ⟨h.2, h.1, fun heq => by cases heq⟩⟩

/-- An alteration runs before the removal of what its object needed and needs no longer. -/
theorem mem_beforeReleased_iff {steps : List Step} {step : Step} {p : Precedence} :
    p ∈ st.beforeReleased steps step ↔ ∃ previous need later,
      st.plan.old.get? step.key.id = some previous ∧ need ∈ st.oldNeeds previous ∧
        need ∉ step.statement.dependencies ∧ st.remover? steps need = some later ∧
        step.key ≠ later ∧ p = ⟨step.key, later, .hard⟩ := by
  unfold beforeReleased
  cases hprevious : st.plan.old.get? step.key.id with
  | none => simp
  | some previous =>
    simp only [List.mem_flatMap, List.mem_filterMap, List.mem_filter, Bool.not_eq_true',
      List.contains_eq_mem, decide_eq_false_iff_not, mem_precede_iff]
    constructor
    · rintro ⟨later, ⟨need, ⟨hneed, hreleased⟩, hremover⟩, rfl, hne, -⟩
      exact ⟨previous, need, later, rfl, hneed, hreleased, hremover, hne, rfl⟩
    · rintro ⟨_, need, later, heq, hneed, hreleased, hremover, hne, rfl⟩
      obtain rfl := Option.some.inj heq
      exact ⟨later, ⟨need, ⟨hneed, hreleased⟩, hremover⟩, rfl, hne, fun h => by cases h⟩

/-- What a creation asks for is that it runs after other steps. -/
theorem afterDrops_spec {step : Step} {p : Precedence}
    (hp : p ∈ st.afterDrops (st.allSteps planned) planned step) :
    p.earlier ∈ (st.allSteps planned).map (·.key) ∧ p.later = step.key ∧ p.earlier ≠ p.later ∧
      p.reason = .hard := by
  obtain ⟨earlier, hearlier, hne, rfl⟩ := mem_afterDrops_iff.1 hp
  refine ⟨?_, rfl, hne, rfl⟩
  rcases hearlier with ⟨-, hin⟩ | ⟨hin, -⟩
  · exact hin
  · rw [allSteps, List.map_append]
    exact List.mem_append_left _ hin

/-- What an alteration asks for is that it runs before drops. -/
theorem beforeReleased_spec {step : Step} {p : Precedence}
    (hp : p ∈ st.beforeReleased (st.allSteps planned) step) :
    p.earlier = step.key ∧ p.later ∈ (st.allSteps planned).map (·.key) ∧ p.earlier ≠ p.later ∧
      p.reason = .hard := by
  obtain ⟨previous, need, later, -, -, -, hremover, hne, rfl⟩ := mem_beforeReleased_iff.1 hp
  refine ⟨rfl, ?_, hne, rfl⟩
  rcases remover?_eq_some.1 hremover with ⟨-, hin⟩ | ⟨-, -, -, -, hin⟩
  · exact hin
  · exact hin

/-- What steps ask for is between two steps, and on account of constraints that are carried. -/
theorem Asked.spec {p : Precedence} (h : st.Asked planned p) :
    p.earlier ∈ (st.allSteps planned).map (·.key) ∧ p.later ∈ (st.allSteps planned).map (·.key) ∧
      p.earlier ≠ p.later ∧ p.reason ≠ .soft ∧
      ∀ constraint, p.reason = .inline constraint → st.Carries constraint := by
  cases h with
  | @need step constraint need earlier reason hstep hbrings hinstalled hne =>
    obtain ⟨hearlier, hsoft, hinline⟩ := installer?_spec hinstalled
    refine ⟨hearlier, List.mem_map_of_mem hstep, hne, ?_, ?_⟩
    · cases constraint
      · exact hsoft
      · simp
    · intro id heq
      cases constraint with
      | none => exact hinline id heq
      | some constraint =>
        obtain rfl := Reason.inline.inj heq
        obtain ⟨s, hcarried, -⟩ := hbrings.needs
        obtain ⟨hchild, rfl, hkind, htravels⟩ := exists_child_of_mem_carried hcarried
        rw [createdChildren] at hchild
        split at hchild
        · exact ⟨hkind, htravels, .inr (Snapshot.contains_of_mem_children hchild)⟩
        · cases hchild
  | afterDrops hstep _ hp =>
    obtain ⟨hearlier, hlater, hne, hreason⟩ := afterDrops_spec hp
    exact ⟨hearlier, hlater ▸ List.mem_map_of_mem hstep, hne, by simp [hreason], by simp [hreason]⟩
  | released hstep _ hp =>
    obtain ⟨hearlier, hlater, hne, hreason⟩ := beforeReleased_spec hp
    exact ⟨hearlier ▸ List.mem_map_of_mem hstep, hlater, hne, by simp [hreason], by simp [hreason]⟩
  | removal hstep _ hp =>
    obtain ⟨hearlier, hlater, hne, hsoft, hinline⟩ := removal_spec hp
    exact ⟨hearlier ▸ List.mem_map_of_mem hstep, hlater, hne, hsoft, hinline⟩

/-! ## The order that webs stay in -/

/-- The keys of the steps of a plan and of the pass-through steps of a web. -/
def Web.keys (st : Staging) (planned : List Step) (web : Web) : List StepKey :=
  (st.allSteps planned).map (·.key) ++ web.passes.map (·.key)

/-- What holds of a web as long as precedences are collected. -/
structure Web.Orderly (st : Staging) (planned : List Step) (web : Web) : Prop where
  /-- Precedences were asked for, or are soft. -/
  asked : ∀ p ∈ web.precedences, p.reason = .soft ∨ st.Asked planned p
  /-- Soft precedences are between steps, and were not severed. -/
  soft : ∀ p ∈ web.precedences, p.reason = .soft →
    p.earlier ∈ web.keys st planned ∧ p.later ∈ web.keys st planned ∧ p.earlier ≠ p.later ∧
      (p.earlier, p.later) ∉ st.breaks.severed
  /-- Pass-through steps are of objects that were looked at. -/
  passes : ∀ step ∈ web.passes, step.key = ⟨.passThrough, step.key.id⟩ ∧
    step.key.id ∈ web.known.map (·.1) ∧ st.plan.new.contains step.key.id = true
  /-- The pass-through step that an object is known to have is there. -/
  known : ∀ id key, (id, some key) ∈ web.known → key ∈ web.keys st planned
  nodup : (web.passes.map (·.key)).Nodup

/-- A web that another one became when objects were looked at from a path, which it keeps clear. -/
structure Web.Becomes (st : Staging) (planned : List Step) (path : List ObjectId) (web next : Web) :
    Prop where
  orderly : next.Orderly st planned
  passes : web.passes ⊆ next.passes
  clear : ∀ id ∈ path, id ∉ web.known.map (·.1) → id ∉ next.known.map (·.1)

/-- A web that stayed as it is. -/
theorem Web.Orderly.refl {web : Web} (h : web.Orderly st planned) (path : List ObjectId) :
    web.Becomes st planned path web :=
  ⟨h, List.Subset.refl _, fun _ _ => id⟩

/-- Looking at objects in two stages. -/
theorem Web.Becomes.trans {path : List ObjectId} {a b c : Web} (hab : a.Becomes st planned path b)
    (hbc : b.Becomes st planned path c) : a.Becomes st planned path c :=
  ⟨hbc.orderly, List.Subset.trans hab.passes hbc.passes,
    fun id hid hnot => hbc.clear id hid (hab.clear id hid hnot)⟩

/-- What keeps a longer path clear keeps a shorter one clear. -/
theorem Web.Becomes.of_cons {id : ObjectId} {path : List ObjectId} {web next : Web}
    (h : web.Becomes st planned (id :: path) next) : web.Becomes st planned path next :=
  ⟨h.orderly, h.passes, fun other hother => h.clear other (List.mem_cons_of_mem _ hother)⟩

/-- No key is lost. -/
theorem Web.Becomes.keys {path : List ObjectId} {web next : Web}
    (h : web.Becomes st planned path next) : web.keys st planned ⊆ next.keys st planned :=
  fun _ hkey => (List.mem_append.1 hkey).elim (List.mem_append_left _ ·) fun hpass =>
    List.mem_append_right _ (List.map_subset _ h.passes hpass)

/-- Adding precedences that were asked for, or that are soft and between steps. -/
theorem Web.Orderly.add {web : Web} (h : web.Orderly st planned) {precedences : List Precedence}
    (hadd : ∀ p ∈ precedences, st.Asked planned p ∨ p.reason = .soft ∧
      p.earlier ∈ web.keys st planned ∧ p.later ∈ web.keys st planned ∧ p.earlier ≠ p.later ∧
        (p.earlier, p.later) ∉ st.breaks.severed) :
    web.Becomes st planned [] (web.add precedences) := by
  refine ⟨⟨fun p hp => ?_, fun p hp hsoft => ?_, h.passes, h.known, h.nodup⟩,
    List.Subset.refl _, fun _ _ => id⟩
  · rcases List.mem_append.1 hp with hp | hp
    · exact h.asked p hp
    · exact (hadd p hp).elim .inr fun hsoft => .inl hsoft.1
  · rcases List.mem_append.1 hp with hp | hp
    · exact h.soft p hp hsoft
    · rcases hadd p hp with hasked | hspec
      · exact absurd hsoft hasked.spec.2.2.2.1
      · exact hspec.2

/-- An object without a pass-through step is known to have none. -/
theorem Web.Orderly.without {web : Web} (h : web.Orderly st planned) {id : ObjectId}
    {path : List ObjectId} (hpath : id ∉ path) :
    web.Becomes st planned path { web with known := (id, none) :: web.known } := by
  refine ⟨⟨h.asked, h.soft, fun step hstep => ?_, fun other key hknown => ?_, h.nodup⟩,
    List.Subset.refl _, fun other hother hnot hin => ?_⟩
  · obtain ⟨hkey, hid, hnew⟩ := h.passes step hstep
    exact ⟨hkey, List.mem_cons_of_mem _ hid, hnew⟩
  · rcases List.mem_cons.1 hknown with heq | hknown
    · cases (Prod.mk.inj heq).2
    · exact h.known other key hknown
  · rcases List.mem_cons.1 hin with rfl | hin
    · exact hpath hother
    · exact hnot hin

/-- An object gets its pass-through step, behind the steps that lead to it. -/
theorem Web.Orderly.withPass {web : Web} (h : web.Orderly st planned) {id : ObjectId}
    {path : List ObjectId} (hpath : id ∉ path) {statement : Statement} {order : Nat}
    {sources : List StepKey} (hnew : st.plan.new.contains id = true)
    (hsources : ∀ key ∈ sources, key ∈ web.keys st planned) (hunknown : id ∉ web.known.map (·.1)) :
    web.Becomes st planned path
      { passes := web.passes ++ [⟨⟨.passThrough, id⟩, statement, order⟩]
        precedences := web.precedences ++
          sources.flatMap fun source => st.precede source ⟨.passThrough, id⟩ .soft
        known := (id, some ⟨.passThrough, id⟩) :: web.known } := by
  have hkeys : ∀ key, key ∈ web.keys st planned →
      key ∈ (st.allSteps planned).map (·.key) ++
        (web.passes ++ [(⟨⟨.passThrough, id⟩, statement, order⟩ : Step)]).map (·.key) :=
      fun key hkey => by
    rw [List.map_append, ← List.append_assoc]
    exact List.mem_append_left _ hkey
  have hself : (⟨.passThrough, id⟩ : StepKey) ∈ (st.allSteps planned).map (·.key) ++
      (web.passes ++ [(⟨⟨.passThrough, id⟩, statement, order⟩ : Step)]).map (·.key) := by simp
  refine ⟨⟨fun p hp => ?_, fun p hp hsoft => ?_, fun step hstep => ?_, fun other key hknown => ?_,
    ?_⟩, List.subset_append_left _ _, fun other hother hnot hin => ?_⟩
  · rcases List.mem_append.1 hp with hp | hp
    · exact h.asked p hp
    · obtain ⟨source, -, hp⟩ := List.mem_flatMap.1 hp
      exact .inl (reason_of_mem_precede hp)
  · rcases List.mem_append.1 hp with hp | hp
    · obtain ⟨hearlier, hlater, hrest⟩ := h.soft p hp hsoft
      exact ⟨hkeys _ hearlier, hkeys _ hlater, hrest⟩
    · obtain ⟨source, hsource, hp⟩ := List.mem_flatMap.1 hp
      obtain ⟨rfl, hne, hsevered⟩ := mem_precede_iff.1 hp
      exact ⟨hkeys _ (hsources source hsource), hself, hne, hsevered rfl⟩
  · rcases List.mem_append.1 hstep with hstep | hstep
    · obtain ⟨hkey, hid, hheld⟩ := h.passes step hstep
      exact ⟨hkey, List.mem_cons_of_mem _ hid, hheld⟩
    · rw [List.mem_singleton.1 hstep]
      exact ⟨rfl, List.mem_cons_self, hnew⟩
  · rcases List.mem_cons.1 hknown with heq | hknown
    · obtain rfl := Option.some.inj (Prod.mk.inj heq).2
      exact hself
    · exact hkeys _ (h.known other key hknown)
  · rw [List.map_append, List.map_singleton]
    refine List.Nodup.append h.nodup (List.nodup_singleton _) ?_
    rw [List.disjoint_singleton]
    intro hin
    obtain ⟨step, hstep, hkey⟩ := List.mem_map.1 hin
    have hid := (h.passes step hstep).2.1
    rw [hkey] at hid
    exact hunknown hid
  · rcases List.mem_cons.1 hin with rfl | hin
    · exact hpath hother
    · exact hnot hin

/-- Following needs one after another keeps a web in order if following each one does, and the steps
that were found are there. -/
theorem becomes_sources {path : List ObjectId} (find : Web → ObjectId → Web × Option StepKey)
    (hfind : ∀ {web : Web} (need : ObjectId), web.Orderly st planned →
      web.Becomes st planned path (find web need).1 ∧
        ∀ key, (find web need).2 = some key → key ∈ (find web need).1.keys st planned)
    {web : Web} (hweb : web.Orderly st planned) (needs : List ObjectId) :
    let found := needs.foldl (fun state need =>
      ((find state.1 need).1, state.2 ++ (find state.1 need).2.toList)) (web, [])
    web.Becomes st planned path found.1 ∧ ∀ key ∈ found.2, key ∈ found.1.keys st planned := by
  refine List.foldlRecOn (motive := fun state : Web × List StepKey =>
    web.Becomes st planned path state.1 ∧ ∀ key ∈ state.2, key ∈ state.1.keys st planned) _ _
    ⟨hweb.refl _, fun _ h => absurd h List.not_mem_nil⟩ fun state hstate need _ => ?_
  obtain ⟨hnext, hkey⟩ := hfind need hstate.1.orderly
  refine ⟨hstate.1.trans hnext, fun key hin => ?_⟩
  rcases List.mem_append.1 hin with hin | hin
  · exact hnext.keys (hstate.2 key hin)
  · exact hkey key (Option.mem_toList.1 hin)

/-- The step after which an object on the way of a pass-through step has its new form, if any step
leads to it. -/
def sourceAlong (st : Staging) (steps : List Step) (depth : Nat) (path : List ObjectId) (web : Web)
    (need : ObjectId) : Web × Option StepKey :=
  match st.installer? steps need with
  | some (step, _) => (web, some step)
  | none => st.passThrough steps depth path web need

/-- The pass-through step of an object, if it has one, is there when it was looked for. -/
theorem becomes_passThrough (depth : Nat) : ∀ (path : List ObjectId) {web : Web} (id : ObjectId),
    web.Orderly st planned →
    web.Becomes st planned path (st.passThrough (st.allSteps planned) depth path web id).1 ∧
      ∀ key, (st.passThrough (st.allSteps planned) depth path web id).2 = some key →
        key ∈ (st.passThrough (st.allSteps planned) depth path web id).1.keys st planned := by
  induction depth with
  | zero => exact fun path web id hweb => ⟨hweb.refl path, fun _ h => by cases h⟩
  | succ depth ih =>
    intro path web id hweb
    unfold passThrough
    split
    · next step hlookup =>
      refine ⟨hweb.refl path, fun key hkey => hweb.known id key ?_⟩
      obtain ⟨before, after, heq, -⟩ := List.lookup_eq_some_iff.1 hlookup
      simp only at hkey
      rw [heq, hkey]
      exact List.mem_append_right _ List.mem_cons_self
    · exact ⟨hweb.refl path, fun _ h => by cases h⟩
    · next statement hlookup hstatement =>
      have hunknown : id ∉ web.known.map (·.1) := fun hin => by
        obtain ⟨pair, hpair, rfl⟩ := List.mem_map.1 hin
        simpa using List.lookup_eq_none_iff.1 hlookup pair hpair
      split
      · exact ⟨hweb.refl path, fun _ h => by cases h⟩
      · next hpath =>
        have hpath : id ∉ path := by simpa using hpath
        split
        next grown sources heq =>
        -- The object itself is on the path while what it needs is looked at, so it stays unknown.
        have hgrown : web.Becomes st planned (id :: path) grown ∧
            ∀ key ∈ sources, key ∈ grown.keys st planned := by
          change web.Becomes st planned (id :: path) (Prod.fst (grown, sources)) ∧
            ∀ key ∈ Prod.snd (grown, sources), key ∈ (Prod.fst (grown, sources)).keys st planned
          rw [← heq]
          refine becomes_sources (st.sourceAlong (st.allSteps planned) depth (id :: path))
            (fun {web} need hweb => ?_) hweb _
          rw [sourceAlong]
          cases hinstaller : st.installer? (st.allSteps planned) need with
          | some found =>
            refine ⟨hweb.refl _, fun key hkey => ?_⟩
            obtain rfl := Option.some.inj hkey
            exact List.mem_append_left _ (installer?_spec hinstaller).1
          | none => exact ih (id :: path) need hweb
        have hclear := hgrown.1.clear id List.mem_cons_self hunknown
        have hnew : st.plan.new.contains id = true := Snapshot.contains_iff.2 ⟨_, hstatement⟩
        split
        · exact ⟨hgrown.1.of_cons.trans (hgrown.1.orderly.without hpath), fun _ h => by cases h⟩
        · refine ⟨hgrown.1.of_cons.trans
            (hgrown.1.orderly.withPass hpath hnew hgrown.2 hclear), fun key hkey => ?_⟩
          obtain rfl := Option.some.inj hkey
          simp [Web.keys]

/-- Following a need that a step installs: the reason is the constraint of the need, if it has one,
else that of the installer. -/
theorem needOf_eq_add {steps : List Step} {key earlier : StepKey} {web : Web} {reason : Reason}
    {need : ObjectId × Option ObjectId} (hsoft : reason ≠ .soft)
    (h : st.installer? steps need.1 = some (earlier, reason)) :
    st.needOf steps key web need =
      web.add (st.precede earlier key ((need.2.map Reason.inline).getD reason)) := by
  obtain ⟨id, constraint⟩ := need
  simp only [needOf, source, h]
  cases reason <;> cases constraint <;> first | rfl | exact absurd rfl hsoft

/-- Following a need of what a step brings keeps a web in order. -/
theorem becomes_needOf {web : Web} {step : Step} (hstep : step ∈ st.allSteps planned)
    (hweb : web.Orderly st planned) {need : ObjectId × Option ObjectId}
    (hneed : st.Brings step need.2 need.1) :
    web.Becomes st planned [] (st.needOf (st.allSteps planned) step.key web need) := by
  cases hinstaller : st.installer? (st.allSteps planned) need.1 with
  | some found =>
    obtain ⟨earlier, reason⟩ := found
    rw [needOf_eq_add (installer?_spec hinstaller).2.1 hinstaller]
    refine hweb.add fun p hp => .inl ?_
    obtain ⟨rfl, hne, -⟩ := mem_precede_iff.1 hp
    exact .need hstep hneed hinstaller hne
  | none =>
    obtain ⟨hnext, hfound⟩ := becomes_passThrough (st.plan.new.size + 1) [] need.1 hweb
    simp only [needOf, source, hinstaller]
    split
    · next heq =>
      rw [← (Prod.mk.inj heq).1]
      exact hnext
    · next next earlier reason heq =>
      obtain ⟨rfl, hstepOf⟩ := Prod.mk.inj heq
      obtain ⟨key, hkey, heq⟩ := Option.map_eq_some_iff.1 hstepOf
      obtain ⟨rfl, rfl⟩ := Prod.mk.inj heq
      refine hnext.trans (hnext.orderly.add fun p hp => .inr ?_)
      obtain ⟨rfl, hne, hsevered⟩ := mem_precede_iff.1 hp
      exact ⟨rfl, hfound _ hkey, List.mem_append_left _ (List.mem_map_of_mem hstep), hne,
        hsevered rfl⟩

/-- The needs that a step which creates or alters takes over are what it brings. -/
theorem brings_iff {step : Step} (hkind : step.key.kind = .create ∨ step.key.kind = .alter)
    {need : ObjectId × Option ObjectId} :
    need ∈ foreignNeeds st.plan.new step.key.id st.newNeeds
        (st.carried step.statement (st.createdChildren step.key)) ↔
      st.Brings step need.2 need.1 := by
  obtain ⟨id, constraint⟩ := need
  rw [mem_foreignNeeds]
  exact ⟨fun ⟨hneeds, houtside⟩ => ⟨hkind, hneeds, houtside⟩,
    fun h => ⟨h.needs, h.outside⟩⟩

/-- Collecting what a step asks for keeps a web in order. -/
theorem becomes_precedencesOf {web : Web} {step : Step} (hstep : step ∈ st.allSteps planned)
    (hweb : web.Orderly st planned) :
    web.Becomes st planned []
      (st.precedencesOf (st.allSteps planned) planned web step) := by
  have hneeds : ∀ hkind : step.key.kind = .create ∨ step.key.kind = .alter,
      web.Becomes st planned [] ((foreignNeeds st.plan.new step.key.id st.newNeeds
        (st.carried step.statement (st.createdChildren step.key))).foldl
          (st.needOf (st.allSteps planned) step.key) web) := fun hkind =>
    List.foldlRecOn (motive := web.Becomes st planned []) _ _ (hweb.refl [])
      fun next hnext need hneed =>
        hnext.trans (becomes_needOf hstep hnext.orderly ((brings_iff hkind).1 hneed))
  unfold precedencesOf
  split
  · next hkind =>
    have hgrown := hneeds (.inl hkind)
    simp only [creation, hkind, createdChildren, if_true] at hgrown ⊢
    exact hgrown.trans (hgrown.orderly.add fun p hp => .inl (.afterDrops hstep hkind hp))
  · next hkind =>
    have hgrown := hneeds (.inr hkind)
    simp only [creation, hkind, createdChildren, reduceCtorEq, if_false] at hgrown ⊢
    exact hgrown.trans (hgrown.orderly.add fun p hp => .inl (.released hstep hkind hp))
  · next hkind => exact hweb.add fun p hp => .inl (.removal hstep hkind hp)
  · exact hweb.refl []

/-- The web of all steps is in order. -/
theorem orderly_web (planned : List Step) : (st.web planned).Orderly st planned := by
  refine List.foldlRecOn (motive := Web.Orderly st planned) _ _ ?_
    fun web hweb step hstep => (becomes_precedencesOf hstep hweb).orderly
  constructor <;> simp

/-! ## The precedences of a graph -/

/-- What steps ask for is among the precedences of all steps. -/
theorem mem_precedences_of_asked {p : Precedence} (h : st.Asked planned p) :
    p ∈ (st.web planned).precedences := by
  cases h with
  | @need step constraint need earlier reason hstep hbrings hinstalled hne =>
    refine mem_precedences_of_step hstep fun web => ?_
    have hfold : ⟨earlier, step.key, (constraint.map Reason.inline).getD reason⟩ ∈
        ((foreignNeeds st.plan.new step.key.id st.newNeeds
          (st.carried step.statement (st.createdChildren step.key))).foldl
            (st.needOf (st.allSteps planned) step.key) web).precedences := by
      refine Web.mem_foldl (fun web need => extends_needOf _ step.key web need) (fun web => ?_)
        ((brings_iff hbrings.kind).2 hbrings : (need, constraint) ∈ _) web
      have hsoft := (installer?_spec hinstalled).2.1
      rw [needOf_eq_add hsoft hinstalled]
      exact List.mem_append_right _ (mem_precede hne (by cases constraint <;> simp [hsoft]))
    have hkind := hbrings.kind
    unfold precedencesOf
    split
    · next hcreate =>
      simp only [creation, hcreate, createdChildren, if_true] at hfold ⊢
      exact List.mem_append_left _ hfold
    · next halter =>
      simp only [creation, halter, createdChildren, reduceCtorEq, if_false] at hfold ⊢
      exact List.mem_append_left _ hfold
    · next hdrop => simp [hdrop] at hkind
    · next hpass => simp [hpass] at hkind
  | afterDrops hstep hcreate hp => exact mem_precedences_of_afterDrops hstep hcreate hp
  | released hstep halter hp =>
    refine mem_precedences_of_step hstep fun web => ?_
    rw [precedencesOf, halter]
    simp only [creation, halter, reduceCtorEq, if_false]
    exact List.mem_append_right _ hp
  | removal hstep hdrop hp => exact mem_precedences_of_removal hstep hdrop hp

/-- The precedences of all steps that are not soft are those that the steps ask for. -/
theorem mem_web_iff {p : Precedence} (hsoft : p.reason ≠ .soft) :
    p ∈ (st.web planned).precedences ↔ st.Asked planned p :=
  ⟨fun hp => ((orderly_web planned).asked p hp).resolve_left hsoft, mem_precedences_of_asked⟩

/-- No two steps of the graph of a plan have one key, and its precedences are between two of
them. -/
theorem sound_of_stepGraph (hentries : (st.plan.entries.map (·.id)).Nodup) {graph : StepGraph}
    (h : st.stepGraph = .ok graph) : graph.Sound := by
  obtain ⟨planned, hplanned, rfl⟩ := stepGraph_iff.1 h
  have horderly : (st.web planned).Orderly st planned := orderly_web planned
  have hkeys : StepGraph.keys ⟨st.allSteps planned ++ (st.web planned).passes,
      (st.web planned).precedences⟩ = (st.web planned).keys st planned := List.map_append
  have hbetween : ∀ p ∈ (st.web planned).precedences,
      p.earlier ∈ (st.web planned).keys st planned ∧ p.later ∈ (st.web planned).keys st planned ∧
        p.earlier ≠ p.later := by
    intro p hp
    by_cases hsoft : p.reason = .soft
    · obtain ⟨hearlier, hlater, hne, -⟩ := horderly.soft p hp hsoft
      exact ⟨hearlier, hlater, hne⟩
    · obtain ⟨hearlier, hlater, hne, -⟩ := ((mem_web_iff hsoft).1 hp).spec
      exact ⟨List.mem_append_left _ hearlier, List.mem_append_left _ hlater, hne⟩
  refine ⟨?_, fun p hp => ?_, fun p hp => (hbetween p hp).2.2⟩
  · rw [hkeys]
    refine (nodup_allSteps hplanned hentries).append horderly.nodup fun key hkey hpass => ?_
    obtain ⟨step, hstep, rfl⟩ := List.mem_map.1 hpass
    exact kind_ne_passThrough hplanned hkey (by rw [(horderly.passes step hstep).1])
  · rw [hkeys]
    exact ⟨(hbetween p hp).1, (hbetween p hp).2.1⟩

end Staging

end SchemaMigration
