import SchemaMigration.Proofs.Plan.Steps

/-!
# The precedences of a plan

The precedences of all steps are collected in a web that only grows (`Staging.Web.Extends`), so what
one step contributes is there in the end (`Staging.mem_precedences_of_step`). The graph of a plan is
made of its steps and of that web (`Staging.stepGraph_iff`).
-/

namespace SchemaMigration

namespace Staging

variable {st : Staging}

/-! ## Growth of webs -/

/-- A web that another one grew into: no precedence is lost, and only pass-through steps are
added. -/
structure Web.Extends (web next : Web) : Prop where
  precedences : web.precedences ⊆ next.precedences
  passes : ∀ step ∈ next.passes, step ∈ web.passes ∨ step.key.kind = .passThrough

/-- A web grew into itself. -/
theorem Web.Extends.refl (web : Web) : web.Extends web :=
  ⟨List.Subset.refl _, fun _ => .inl⟩

/-- Growth in two stages. -/
theorem Web.Extends.trans {a b c : Web} (hab : a.Extends b) (hbc : b.Extends c) : a.Extends c :=
  ⟨List.Subset.trans hab.precedences hbc.precedences,
    fun step hstep => (hbc.passes step hstep).elim (hab.passes step) .inr⟩

/-- Adding precedences lets a web grow. -/
theorem Web.extends_add (web : Web) (precedences : List Precedence) :
    web.Extends (web.add precedences) :=
  ⟨List.subset_append_left _ _, fun _ => .inl⟩

/-- A web grows through a list if it grows with each element. -/
theorem Web.extends_foldl {β γ : Type} {w : β → Web} {f : β → γ → β} :
    ∀ (l : List γ) (b : β), (∀ b c, (w b).Extends (w (f b c))) → (w b).Extends (w (l.foldl f b))
  | [], _, _ => .refl _
  | c :: l, b, hf => (hf b c).trans (extends_foldl l (f b c) hf)

/-- A precedence is collected unless it is of a step and itself or was severed. -/
theorem mem_precede_iff {earlier later : StepKey} {reason : Reason} {p : Precedence} :
    p ∈ st.precede earlier later reason ↔ p = ⟨earlier, later, reason⟩ ∧ earlier ≠ later ∧
      (reason = .soft → (earlier, later) ∉ st.breaks.severed) := by
  unfold precede
  split
  · next hcond =>
    simp only [Bool.or_eq_true, Bool.and_eq_true, decide_eq_true_eq, List.contains_iff_mem] at hcond
    simp only [List.not_mem_nil, false_iff]
    rintro ⟨-, hne, hsevered⟩
    exact hcond.elim hne fun h => hsevered h.1 h.2
  · next hcond =>
    simp only [Bool.or_eq_true, Bool.and_eq_true, decide_eq_true_eq, List.contains_iff_mem,
      not_or, not_and] at hcond
    exact List.mem_singleton.trans ⟨fun hp => ⟨hp, hcond.1, hcond.2⟩, And.left⟩

/-- A precedence that is collected has the reason that it was collected for. -/
theorem reason_of_mem_precede {earlier later : StepKey} {reason : Reason} {p : Precedence}
    (hp : p ∈ st.precede earlier later reason) : p.reason = reason := by
  rw [(mem_precede_iff.1 hp).1]

/-- What each element contributes is there after the whole list. -/
theorem Web.mem_foldl {γ : Type} {f : Web → γ → Web} {l : List γ}
    (hf : ∀ (web : Web) (c : γ), web.Extends (f web c))
    {p : Precedence} {c : γ} (hp : ∀ web, p ∈ (f web c).precedences) (hc : c ∈ l)
    (web : Web) : p ∈ (l.foldl f web).precedences := by
  obtain ⟨before, after, rfl⟩ := List.append_of_mem hc
  rw [List.foldl_append, List.foldl_cons]
  exact (extends_foldl (w := id) after _ hf).precedences (hp _)

/-- Following an untouched object lets the web grow. -/
theorem extends_passThrough (steps : List Step) :
    ∀ (depth : Nat) (path : List ObjectId) (web : Web) (id : ObjectId),
      web.Extends (st.passThrough steps depth path web id).1 := by
  intro depth
  induction depth with
  | zero => exact fun path web id => .refl web
  | succ depth ih =>
    intro path web id
    unfold passThrough
    split
    · exact .refl web
    · exact .refl web
    · next statement _ _ =>
      split
      · exact .refl web
      · split
        next grown sources heq =>
        refine Web.Extends.trans (b := grown) ?_ ?_
        · change (Prod.fst (web, ([] : List StepKey))).Extends (Prod.fst (grown, sources))
          rw [← heq]
          refine Web.extends_foldl (w := Prod.fst) _ _ fun b need => ?_
          cases hinstaller : st.installer? steps need with
          | some => simpa only [hinstaller] using Web.Extends.refl b.1
          | none => simpa only [hinstaller] using ih (id :: path) b.1 need
        · split
          · exact ⟨List.Subset.refl _, fun _ => .inl⟩
          · refine ⟨List.subset_append_left _ _, fun step hstep => ?_⟩
            rcases List.mem_append.1 hstep with hstep | hstep
            · exact .inl hstep
            · rw [List.mem_singleton.1 hstep]
              exact .inr rfl

/-- Looking for the source of a need lets the web grow. -/
theorem extends_source (steps : List Step) (web : Web) (id : ObjectId) :
    web.Extends (st.source steps web id).1 := by
  unfold source
  split
  · exact .refl web
  · exact extends_passThrough steps _ [] web id

/-- Following a need lets the web grow. -/
theorem extends_needOf (steps : List Step) (key : StepKey) (web : Web)
    (need : ObjectId × Option ObjectId) : web.Extends (st.needOf steps key web need) := by
  have hsource : web.Extends (st.source steps web need.1).1 := extends_source steps web need.1
  unfold needOf
  split
  · next heq => rwa [heq] at hsource
  · next earlier reason heq =>
    rw [heq] at hsource
    exact hsource.trans (Web.extends_add _ _)

/-- The precedences of a step that creates or alters let the web grow. -/
theorem extends_creation (steps planned : List Step) (web : Web) (step : Step) :
    web.Extends (st.creation steps planned web step) :=
  (Web.extends_foldl (w := id) _ web fun web need =>
    extends_needOf steps step.key web need).trans (Web.extends_add _ _)

/-- The precedences of a step let the web grow. -/
theorem extends_precedencesOf (steps planned : List Step) (web : Web) (step : Step) :
    web.Extends (st.precedencesOf steps planned web step) := by
  unfold precedencesOf
  split
  · exact extends_creation steps planned web step
  · exact extends_creation steps planned web step
  · exact Web.extends_add _ _
  · exact .refl web

/-! ## The precedences of all steps -/

/-- The precedences of all steps of a plan. -/
def web (st : Staging) (planned : List Step) : Web :=
  (st.allSteps planned).foldl (st.precedencesOf (st.allSteps planned) planned) {}

/-- The web of all steps grew from nothing. -/
theorem extends_web (planned : List Step) : Web.Extends {} (st.web planned) :=
  Web.extends_foldl (w := id) _ {} fun web step => extends_precedencesOf _ planned web step

/-- What a step contributes is there in the end. -/
theorem mem_precedences_of_step {planned : List Step} {step : Step} {p : Precedence}
    (hstep : step ∈ st.allSteps planned)
    (hp : ∀ web, p ∈ (st.precedencesOf (st.allSteps planned) planned web step).precedences) :
    p ∈ (st.web planned).precedences :=
  Web.mem_foldl (fun web step => extends_precedencesOf _ planned web step) hp hstep {}

/-- A step that drops runs before whatever its removal says. -/
theorem mem_precedences_of_removal {planned : List Step} {step : Step} {p : Precedence}
    (hstep : step ∈ st.allSteps planned) (hdrop : step.key.kind = .drop)
    (hp : p ∈ st.removal (st.allSteps planned) step) : p ∈ (st.web planned).precedences :=
  mem_precedences_of_step hstep fun web => by
    rw [precedencesOf, hdrop]
    exact List.mem_append_right _ hp

/-- A step that creates runs after its parent and after drops. -/
theorem mem_precedences_of_afterDrops {planned : List Step} {step : Step} {p : Precedence}
    (hstep : step ∈ st.allSteps planned) (hcreate : step.key.kind = .create)
    (hp : p ∈ st.afterDrops (st.allSteps planned) planned step) :
    p ∈ (st.web planned).precedences :=
  mem_precedences_of_step hstep fun web => by
    rw [precedencesOf, hcreate]
    simp only [creation, hcreate, if_true]
    exact List.mem_append_right _ hp

/-- A hard or inline precedence is never severed. -/
theorem mem_precede {earlier later : StepKey} {reason : Reason} (hne : earlier ≠ later)
    (hreason : reason ≠ .soft) : ⟨earlier, later, reason⟩ ∈ st.precede earlier later reason := by
  simp [precede, hne, hreason]

/-- A step takes over the dependencies of a child that travels with its object. -/
theorem exists_mem_carried {s t : Statement} {children : List Statement} (hchild : t ∈ children)
    (htravels : st.travels t.id = true) :
    ∃ constraint, (t, constraint) ∈ st.carried s children :=
  ⟨_, List.mem_cons_of_mem _
    (List.mem_map.2 ⟨t, List.mem_filter.2 ⟨hchild, htravels⟩, rfl⟩)⟩

/-- What a step carries is the statement of its object, or one of the children that travel. -/
theorem mem_carried {s t : Statement} {children : List Statement} {constraint : Option ObjectId}
    (h : (t, constraint) ∈ st.carried s children) :
    t = s ∨ t ∈ children ∧ st.travels t.id = true := by
  rcases List.mem_cons.1 h with heq | hmap
  · exact .inl (Prod.mk.inj heq).1
  · obtain ⟨child, hchild, heq⟩ := List.mem_map.1 hmap
    obtain ⟨rfl, -⟩ := Prod.mk.inj heq
    exact .inr (List.mem_filter.1 hchild)

/-- The children whose dependencies the drop of an object takes over. -/
def droppedChildren (st : Staging) (id : ObjectId) : List Statement :=
  if id.kind.isSubElement then []
  else (st.plan.old.children id).filter (·.kind.isSubElement)

/-- The needs of carried statements that are outside an object. -/
theorem mem_foreignNeeds {snapshot : Snapshot} {id : ObjectId} {needs : Statement → List ObjectId}
    {carried : List (Statement × Option ObjectId)} {need : ObjectId}
    {constraint : Option ObjectId} :
    (need, constraint) ∈ foreignNeeds snapshot id needs carried ↔
      (∃ s, (s, constraint) ∈ carried ∧ need ∈ needs s) ∧ need ≠ id ∧
        snapshot.isDescendant need id = false := by
  rw [foreignNeeds, List.mem_filter, List.mem_flatMap]
  simp only [Bool.and_eq_true, decide_eq_true_eq, Bool.not_eq_true', List.mem_map]
  refine and_congr_left fun _ => ⟨?_, ?_⟩
  · rintro ⟨⟨s, _⟩, hcarried, _, hneed, heq⟩
    obtain ⟨rfl, rfl⟩ := Prod.mk.inj heq
    exact ⟨s, hcarried, hneed⟩
  · rintro ⟨s, hcarried, hneed⟩
    exact ⟨(s, constraint), hcarried, need, hneed, rfl⟩

/-- A drop runs before the removal and before the alteration of what its object, or one that goes
with it, needs, and before the drop of its parent. -/
theorem mem_removal_iff {steps : List Step} {step : Step} {p : Precedence} :
    p ∈ st.removal steps step ↔
      (∃ s constraint need later,
        (s, constraint) ∈ st.carried step.statement (st.droppedChildren step.key.id) ∧
          need ∈ st.oldNeeds s ∧ need ≠ step.key.id ∧
          st.plan.old.isDescendant need step.key.id = false ∧
          (st.remover? steps need = some later ∨
            later = ⟨.alter, need⟩ ∧ Steps.has steps later = true) ∧
          step.key ≠ later ∧
          p = ⟨step.key, later, (constraint.map Reason.inline).getD .hard⟩) ∨
      ∃ parent, step.statement.parent = some parent ∧
        Steps.has steps ⟨.drop, parent⟩ = true ∧ step.key ≠ ⟨.drop, parent⟩ ∧
          p = ⟨step.key, ⟨.drop, parent⟩, .hard⟩ := by
  have hsoft : ∀ constraint : Option ObjectId,
      (constraint.map Reason.inline).getD .hard ≠ .soft := by
    intro constraint
    cases constraint <;> simp
  rw [removal, List.mem_append]
  refine or_congr ?_ ?_
  · change p ∈ (foreignNeeds st.plan.old step.key.id st.oldNeeds
      (st.carried step.statement (st.droppedChildren step.key.id))).flatMap _ ↔ _
    rw [List.mem_flatMap]
    constructor
    · rintro ⟨⟨need, constraint⟩, hneed, hp⟩
      obtain ⟨later, hlater, hp⟩ := List.mem_flatMap.1 hp
      obtain ⟨rfl, hne, -⟩ := mem_precede_iff.1 hp
      obtain ⟨⟨s, hcarried, hneed⟩, houtside⟩ := mem_foreignNeeds.1 hneed
      refine ⟨s, constraint, need, later, hcarried, hneed, houtside.1, houtside.2, ?_, hne, rfl⟩
      rcases List.mem_append.1 hlater with hlater | hlater
      · exact .inl (Option.mem_toList.1 hlater)
      · obtain ⟨heq, hhas⟩ := List.mem_filter.1 hlater
        exact .inr ⟨List.mem_singleton.1 heq, hhas⟩
    · rintro ⟨s, constraint, need, later, hcarried, hneed, hne, hforeign, hlater, hdiff, rfl⟩
      refine ⟨(need, constraint), mem_foreignNeeds.2 ⟨⟨s, hcarried, hneed⟩, hne, hforeign⟩,
        List.mem_flatMap.2 ⟨later, ?_, mem_precede_iff.2
          ⟨rfl, hdiff, fun heq => absurd heq (hsoft constraint)⟩⟩⟩
      rw [List.mem_append]
      rcases hlater with hlater | ⟨rfl, hlater⟩
      · exact .inl (Option.mem_toList.2 hlater)
      · exact .inr (List.mem_filter.2 ⟨List.mem_singleton_self _, hlater⟩)
  · simp only [List.mem_flatMap, List.mem_filter, List.mem_map, Option.mem_toList, mem_precede_iff]
    constructor
    · rintro ⟨_, ⟨⟨parent, hparent, rfl⟩, hhas⟩, rfl, hne, -⟩
      exact ⟨parent, hparent, hhas, hne, rfl⟩
    · rintro ⟨parent, hparent, hhas, hne, rfl⟩
      exact ⟨_, ⟨⟨parent, hparent, rfl⟩, hhas⟩, rfl, hne, fun heq => by cases heq⟩

/-- A drop runs before the removal and before the alteration of what its object, or one that goes
with it, needs. -/
theorem mem_removal_of_need {steps : List Step} {step : Step} {s : Statement}
    {constraint : Option ObjectId} {need : ObjectId} {later : StepKey}
    (hcarried : (s, constraint) ∈ st.carried step.statement (st.droppedChildren step.key.id))
    (hneed : need ∈ st.oldNeeds s) (hne : need ≠ step.key.id)
    (hforeign : st.plan.old.isDescendant need step.key.id = false)
    (hlater : st.remover? steps need = some later ∨
      later = ⟨.alter, need⟩ ∧ Steps.has steps later = true) (hdiff : step.key ≠ later) :
    ∃ reason, ⟨step.key, later, reason⟩ ∈ st.removal steps step :=
  ⟨_, mem_removal_iff.2 (.inl
    ⟨s, constraint, need, later, hcarried, hneed, hne, hforeign, hlater, hdiff, rfl⟩)⟩

/-! ## Graphs of steps -/

/-- The graph of a plan is made of its steps and of the web of their precedences. -/
theorem stepGraph_iff {graph : StepGraph} :
    st.stepGraph = .ok graph ↔ ∃ planned, st.plannedSteps = .ok planned ∧
      graph = ⟨st.allSteps planned ++ (st.web planned).passes, (st.web planned).precedences⟩ := by
  rw [stepGraph, bind_eq_ok]
  refine exists_congr fun planned => and_congr_right fun _ => ?_
  exact ⟨fun h => (Except.ok.inj h).symm, fun h => congrArg _ h.symm⟩

/-- A graph has the steps of the plan, pass-through steps behind them, and their precedences. -/
theorem stepGraph_eq_ok {graph : StepGraph} (h : st.stepGraph = .ok graph) :
    ∃ planned passes, st.plannedSteps = .ok planned ∧ graph.steps = st.allSteps planned ++ passes ∧
      (∀ step ∈ passes, step.key.kind = .passThrough) ∧
      graph.precedences = (st.web planned).precedences := by
  obtain ⟨planned, hplanned, rfl⟩ := stepGraph_iff.1 h
  refine ⟨planned, (st.web planned).passes, hplanned, rfl, fun step hstep => ?_, rfl⟩
  exact ((extends_web planned).passes step hstep).resolve_left List.not_mem_nil

end Staging

end SchemaMigration
