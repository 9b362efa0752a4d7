import SchemaMigration.Proofs.Plan.Expansion

/-!
# Plans of elements

An element is put into the plan with the treatment that is decided for it: what is said to be on one
side only is created or dropped, what is on both sides is altered, recreated or left alone
(`Element.decide_spec`). So the plan of some elements is one that expansion can start from
(`Plan.initial_of_ofElements`), and it creates and drops in good faith if the elements tell the
truth about where their objects are.
-/

namespace SchemaMigration

variable {old new : Snapshot}

/-! ## Decisions -/

/-- An element names the sides that hold it. -/
def Element.Agrees (old new : Snapshot) (element : Element) : Prop :=
  (old.contains element.id = true ↔ element.presence ≠ .onlyNew) ∧
    (new.contains element.id = true ↔ element.presence ≠ .onlyOld)

/-- Whether an element names the sides that hold it can be computed. -/
instance (element : Element) : Decidable (element.Agrees old new) :=
  inferInstanceAs (Decidable (_ ∧ _))

/-- A statement that is meant to be on a side is there. -/
theorem require_map_eq_ok {snapshot : Snapshot} {id : ObjectId} {side : Side}
    {s : Option Statement} :
    (some <$> snapshot.require id side) = .ok s ↔
      snapshot.get? id = s ∧ snapshot.contains id = true := by
  rw [Snapshot.contains_iff, Snapshot.require]
  cases snapshot.get? id with
  | none => simp
  | some found => exact ⟨fun h => ⟨Except.ok.inj h, found, rfl⟩, fun h => by rw [← h.1]; rfl⟩

/-- A statement of an alteration that brings an object of both snapshots to its new form. -/
def AltersInPlace (old new : Snapshot) (id : ObjectId) (sql : String) : Prop :=
  ∃ s t alteration, old.get? id = some s ∧ new.get? id = some t ∧
    new.dialect.alter s t = .ok alteration ∧ sql ∈ (Decision.ofAlteration alteration).statements

/-- The decision on an element follows from where it is said to be. -/
structure Element.Decides (old new : Snapshot) (element : Element) (decision : Decision) :
    Prop where
  statements : ∀ sql ∈ decision.statements, AltersInPlace old new element.id sql
  old : element.presence ≠ .onlyNew → old.contains element.id = true
  new : element.presence ≠ .onlyOld → new.contains element.id = true
  drop : decision.treatment = .drop ↔ element.presence = .onlyOld
  create : decision.treatment = .create ↔ element.presence = .onlyNew

/-- What is decided on an alteration neither creates nor drops. -/
theorem Decision.treatment_ofAlteration (alteration : Alteration) :
    (ofAlteration alteration).treatment ≠ .create ∧
      (ofAlteration alteration).treatment ≠ .drop := by
  cases alteration <;> simp [ofAlteration]

/-- The decision on an object on both sides neither creates nor drops. -/
theorem Dialect.decideOn_both {dialect : Dialect} {id : ObjectId} {s t : Statement}
    {decision : Decision} (h : dialect.decideOn id (some s) (some t) = .ok decision) :
    decision.treatment ≠ .create ∧ decision.treatment ≠ .drop := by
  simp only [decideOn] at h
  split at h
  · cases h
  · split at h
    · cases h
    · split at h
      · cases h
        simp
      · cases halter : dialect.alter s t with
        | error => rw [halter] at h; cases h
        | ok alteration =>
          rw [halter] at h
          cases h
          exact Decision.treatment_ofAlteration alteration

/-- The decision on an object on one side only creates or drops it. -/
theorem Dialect.decideOn_oneSided {dialect : Dialect} {id : ObjectId} {s : Statement}
    {decision : Decision} :
    (dialect.decideOn id (some s) none = .ok decision → decision.treatment = .drop) ∧
      (dialect.decideOn id none (some s) = .ok decision → decision.treatment = .create) := by
  constructor <;>
  · intro h
    simp only [decideOn] at h
    split at h
    · cases h
    · cases h
      rfl

/-- A decision alters nothing in place, or carries out the alteration of the dialect. -/
theorem Dialect.decideOn_cases {dialect : Dialect} {id : ObjectId} {s t : Option Statement}
    {decision : Decision} (h : dialect.decideOn id s t = .ok decision) :
    decision.treatment.alters = false ∧ decision.statements = [] ∨
      ∃ before after alteration, s = some before ∧ t = some after ∧
        before.definition.kind = after.definition.kind ∧
        dialect.alter before after = .ok alteration ∧ decision = .ofAlteration alteration := by
  simp only [decideOn] at h
  split at h
  · cases h
  · split at h
    · cases h
      exact .inl ⟨rfl, rfl⟩
    · cases h
      exact .inl ⟨rfl, rfl⟩
    · split at h
      · cases h
      · next hkind =>
        split at h
        · cases h
          exact .inl ⟨rfl, rfl⟩
        · obtain ⟨alteration, halter, rfl⟩ := map_eq_ok.1 h
          exact .inr ⟨_, _, alteration, rfl, rfl, not_not.1 hkind, halter, rfl⟩
    · cases h

/-- The statements that are decided on are those of an alteration. -/
theorem Dialect.alter_of_decideOn {dialect : Dialect} {id : ObjectId} {s t : Option Statement}
    {decision : Decision} {sql : String} (h : dialect.decideOn id s t = .ok decision)
    (hsql : sql ∈ decision.statements) :
    ∃ before after alteration, s = some before ∧ t = some after ∧
      dialect.alter before after = .ok alteration ∧
      sql ∈ (Decision.ofAlteration alteration).statements := by
  rcases decideOn_cases h with ⟨-, hnone⟩ | ⟨before, after, alteration, hs, ht, -, halter, rfl⟩
  · rw [hnone] at hsql
    cases hsql
  · exact ⟨before, after, alteration, hs, ht, halter, hsql⟩

/-- The statements of an element are those that the snapshots hold. -/
theorem Element.get?_of_statements {element : Element} {s t : Option Statement}
    (h : element.statements old new = .ok (s, t)) :
    (∀ before, s = some before → old.get? element.id = some before) ∧
      ∀ after, t = some after → new.get? element.id = some after := by
  rw [statements] at h
  cases hpresence : element.presence <;>
    simp only [hpresence, reduceCtorEq, if_false, if_true, bind_eq_ok, pure_bind,
      require_map_eq_ok] at h
  case onlyOld =>
    obtain ⟨_, ⟨rfl, -⟩, h⟩ := h
    obtain ⟨rfl, rfl⟩ := Prod.mk.inj (Except.ok.inj h)
    exact ⟨fun _ hs => hs, fun _ ht => by cases ht⟩
  case onlyNew =>
    obtain ⟨_, ⟨rfl, -⟩, h⟩ := h
    obtain ⟨rfl, rfl⟩ := Prod.mk.inj (Except.ok.inj h)
    exact ⟨fun _ hs => (by cases hs), fun _ ht => ht⟩
  case both =>
    obtain ⟨_, ⟨rfl, -⟩, _, ⟨rfl, -⟩, h⟩ := h
    obtain ⟨rfl, rfl⟩ := Prod.mk.inj (Except.ok.inj h)
    exact ⟨fun _ hs => hs, fun _ ht => ht⟩

/-- The statements of an element on both sides are there. -/
theorem Element.statements_of_both {element : Element} {s t : Option Statement}
    (hboth : element.presence = .both) (h : element.statements old new = .ok (s, t)) :
    (old.get? element.id = s ∧ old.contains element.id = true) ∧
      new.get? element.id = t ∧ new.contains element.id = true := by
  simp only [statements, hboth, reduceCtorEq, if_false, bind_eq_ok, require_map_eq_ok] at h
  obtain ⟨_, hold, _, hnew, hpair⟩ := h
  obtain ⟨rfl, rfl⟩ := Prod.mk.inj (Except.ok.inj hpair)
  exact ⟨hold, hnew⟩

/-- What is decided on an element follows from where it is said to be. -/
theorem Element.decides_of_statements {element : Element} {s t : Option Statement}
    {decision : Decision} (hstatements : element.statements old new = .ok (s, t))
    (hdecision : new.dialect.decideOn element.id s t = .ok decision) :
    element.Decides old new decision := by
  rw [statements] at hstatements
  cases hpresence : element.presence <;>
    simp only [hpresence, reduceCtorEq, if_false, if_true, bind_eq_ok, pure_bind,
      require_map_eq_ok] at hstatements
  case onlyOld =>
    obtain ⟨_, ⟨rfl, hold⟩, h⟩ := hstatements
    obtain ⟨rfl, rfl⟩ := Prod.mk.inj (Except.ok.inj h)
    obtain ⟨s, hs⟩ := Snapshot.contains_iff.1 hold
    rw [hs] at hdecision
    have hdrop := Dialect.decideOn_oneSided.1 hdecision
    refine ⟨fun sql hsql => ?_, fun _ => hold, fun h => absurd hpresence h,
      by simp [hdrop, hpresence], by simp [hdrop, hpresence]⟩
    obtain ⟨_, _, _, -, hnone, -⟩ := Dialect.alter_of_decideOn hdecision hsql
    cases hnone
  case onlyNew =>
    obtain ⟨_, ⟨rfl, hnew⟩, h⟩ := hstatements
    obtain ⟨rfl, rfl⟩ := Prod.mk.inj (Except.ok.inj h)
    obtain ⟨t, ht⟩ := Snapshot.contains_iff.1 hnew
    rw [ht] at hdecision
    have hcreate := Dialect.decideOn_oneSided.2 hdecision
    refine ⟨fun sql hsql => ?_, fun h => absurd hpresence h, fun _ => hnew,
      by simp [hcreate, hpresence], by simp [hcreate, hpresence]⟩
    obtain ⟨_, _, _, hnone, -⟩ := Dialect.alter_of_decideOn hdecision hsql
    cases hnone
  case both =>
    obtain ⟨_, ⟨rfl, hold⟩, _, ⟨rfl, hnew⟩, h⟩ := hstatements
    obtain ⟨rfl, rfl⟩ := Prod.mk.inj (Except.ok.inj h)
    obtain ⟨s, hs⟩ := Snapshot.contains_iff.1 hold
    obtain ⟨t, ht⟩ := Snapshot.contains_iff.1 hnew
    rw [hs, ht] at hdecision
    obtain ⟨hcreate, hdrop⟩ := Dialect.decideOn_both hdecision
    refine ⟨fun sql hsql => ?_, fun _ => hold, fun _ => hnew, by simp [hdrop, hpresence],
      by simp [hcreate, hpresence]⟩
    obtain ⟨_, _, alteration, hbefore, hafter, halter⟩ := Dialect.alter_of_decideOn hdecision hsql
    obtain rfl := Option.some.inj hbefore
    obtain rfl := Option.some.inj hafter
    exact ⟨s, t, alteration, hs, ht, halter⟩

/-! ## Selecting -/

namespace Plan

variable {plan next : Plan} {element : Element} {order : Nat}

/-- What selecting an element does follows from what is decided on its statements. -/
theorem select_spec (h : plan.select element order = .ok next) :
    (plan.contains element.id = true ∧ next = plan) ∨
    plan.get? element.id = none ∧ ∃ s t decision,
      element.statements plan.old plan.new = .ok (s, t) ∧
      plan.new.dialect.decideOn element.id s t = .ok decision ∧
      next = if decision.treatment = .nothing then plan else { plan with
        entries := plan.entries ++
          [⟨element.id, decision.treatment, .selected, order, decision.statements⟩] } := by
  unfold select at h
  split at h
  · next hcontains => exact .inl ⟨hcontains, (Except.ok.inj h).symm⟩
  · next habsent =>
    simp only [bind_eq_ok] at h
    obtain ⟨⟨s, t⟩, hstatements, decision, hdecision, h⟩ := h
    refine .inr ⟨get?_eq_none_iff.2 (Bool.eq_false_iff.2 habsent), s, t, decision, hstatements,
      hdecision, ?_⟩
    split at h
    · next hnothing => rw [if_pos hnothing, Except.ok.inj h]
    · next htouched => rw [if_neg htouched, Except.ok.inj h]

/-- Selecting an element that is known or needs nothing leaves the plan alone; otherwise the element
is added with what is decided on it. -/
theorem select_eq_ok (h : plan.select element order = .ok next) :
    (next = plan ∧ (plan.contains element.id = true ∨ ∃ decision,
      element.Decides plan.old plan.new decision ∧ decision.treatment = .nothing)) ∨
    (plan.get? element.id = none ∧ ∃ decision, element.Decides plan.old plan.new decision ∧
      decision.treatment ≠ .nothing ∧
      next = { plan with
        entries := plan.entries ++
          [⟨element.id, decision.treatment, .selected, order, decision.statements⟩] }) := by
  rcases select_spec h with
    ⟨hcontains, rfl⟩ | ⟨habsent, s, t, decision, hstatements, hdecision, rfl⟩
  · exact .inl ⟨rfl, .inl hcontains⟩
  · have hdecides := Element.decides_of_statements hstatements hdecision
    split
    · next hnothing => exact .inl ⟨rfl, .inr ⟨decision, hdecides, hnothing⟩⟩
    · next htouched => exact .inr ⟨habsent, decision, hdecides, htouched, rfl⟩

/-- Selecting an element keeps what expansion can start from. -/
theorem Initial.select (hplan : plan.Initial) (h : plan.select element order = .ok next) :
    next.Initial ∧ next.old = plan.old ∧ next.new = plan.new := by
  rcases select_eq_ok h with ⟨rfl, -⟩ | ⟨habsent, decision, hdecides, htouched, rfl⟩
  · exact ⟨hplan, rfl, rfl⟩
  · refine ⟨⟨hplan.old, hplan.new, hplan.distinct.append habsent,
      hplan.grounded.append habsent ⟨fun hcreate => hdecides.old fun hnew => ?_,
        fun hdrop => hdecides.new fun hold => ?_, htouched⟩, fun entry hentry => ?_⟩, rfl, rfl⟩
    · exact hcreate (hdecides.create.2 hnew)
    · exact hdrop (hdecides.drop.2 hold)
    · rcases List.mem_append.1 hentry with hentry | hentry
      · exact hplan.selected entry hentry
      · rw [List.mem_singleton.1 hentry]

/-- Selecting an element that tells the truth keeps a plan truthful. -/
theorem Truthful.select {fresh gone : ObjectId → Prop} (hplan : plan.Truthful fresh gone)
    (hnew : plan.new.WellFormed) (h : plan.select element order = .ok next)
    (hfresh : element.presence = .onlyNew → fresh element.id)
    (hgone : element.presence = .onlyOld → gone element.id) : next.Truthful fresh gone := by
  rcases select_eq_ok h with ⟨rfl, -⟩ | ⟨habsent, decision, hdecides, -, rfl⟩
  · exact hplan
  · exact hplan.update hnew (.append habsent) (get?_append habsent)
      (fun hcreate => .inl (hfresh (hdecides.create.1 hcreate)))
      fun hdrop => hgone (hdecides.drop.1 hdrop)

/-- The plan of elements of well-formed snapshots is one that expansion can start from. -/
theorem initial_of_ofElements {elements : List Element} (hold : old.WellFormed)
    (hnew : new.WellFormed) (h : ofElements old new elements = .ok plan) :
    plan.Initial ∧ plan.old = old ∧ plan.new = new := by
  refine foldlM_preserves (fun plan => plan.Initial ∧ plan.old = old ∧ plan.new = new) h ?_ ?_
  · refine ⟨⟨hold, hnew, List.nodup_nil, ?_, by simp⟩, rfl, rfl⟩
    intro id entry hfind
    cases hfind
  · rintro ⟨element, order⟩ - plan next ⟨hplan, hold, hnew⟩ hselect
    obtain ⟨hnext, hold', hnew'⟩ := hplan.select hselect
    exact ⟨hnext, hold'.trans hold, hnew'.trans hnew⟩

/-- The plan of elements that tell the truth is truthful. -/
theorem truthful_of_ofElements {elements : List Element} {fresh gone : ObjectId → Prop}
    (hnew : new.WellFormed) (h : ofElements old new elements = .ok plan)
    (hfresh : ∀ element ∈ elements, element.presence = .onlyNew → fresh element.id)
    (hgone : ∀ element ∈ elements, element.presence = .onlyOld → gone element.id) :
    plan.Truthful fresh gone := by
  have hempty : Plan.Truthful ⟨old, new, []⟩ fresh gone :=
    ⟨fun hfind => (by cases hfind), fun hfind => (by cases hfind)⟩
  have hboth := foldlM_preserves (fun plan : Plan => plan.new = new ∧ plan.Truthful fresh gone) h
    ⟨rfl, hempty⟩ ?_
  · exact hboth.2
  · rintro ⟨element, order⟩ hin plan next ⟨rfl, hplan⟩ hselect
    have hmem : element ∈ elements := (List.mem_zipIdx' hin).2 ▸ List.getElem_mem _
    refine ⟨?_, hplan.select hnew hselect (hfresh element hmem) (hgone element hmem)⟩
    rcases select_eq_ok hselect with ⟨rfl, -⟩ | ⟨-, _, -, -, rfl⟩ <;> rfl

/-- An element of a plan has an entry for its object, unless nothing is to be done about this. -/
theorem contains_or_nothing_of_mem {elements : List Element}
    (h : ofElements old new elements = .ok plan) (hmem : element ∈ elements) :
    plan.contains element.id = true ∨ ∃ s t decision, element.statements old new = .ok (s, t) ∧
      new.dialect.decideOn element.id s t = .ok decision ∧ decision.treatment = .nothing := by
  -- Either the element is still to come, or it has been decided on.
  have hresult := foldlM_preserves_rest (fun (rest : List (Element × Nat)) (plan : Plan) =>
    plan.old = old ∧ plan.new = new ∧ (element ∈ rest.map (·.1) ∨ plan.contains element.id = true ∨
      ∃ s t decision, element.statements old new = .ok (s, t) ∧
        new.dialect.decideOn element.id s t = .ok decision ∧ decision.treatment = .nothing)) h
    ⟨rfl, rfl, .inl (by rwa [List.zipIdx_map_fst])⟩ ?_
  · exact hresult.2.2.resolve_left List.not_mem_nil
  rintro ⟨other, order⟩ rest plan next ⟨rfl, rfl, hplan⟩ hselect
  rcases select_spec hselect with
    ⟨hcontains, rfl⟩ | ⟨habsent, s, t, decision, hstatements, hdecision, rfl⟩
  · refine ⟨rfl, rfl, hplan.elim (fun hcoming => ?_) .inr⟩
    rcases List.mem_cons.1 hcoming with rfl | hcoming
    · exact .inr (.inl hcontains)
    · exact .inl hcoming
  · split
    · next hnothing =>
      refine ⟨rfl, rfl, hplan.elim (fun hcoming => ?_) .inr⟩
      rcases List.mem_cons.1 hcoming with rfl | hcoming
      · exact .inr (.inr ⟨s, t, decision, hstatements, hdecision, hnothing⟩)
      · exact .inl hcoming
    · refine ⟨rfl, rfl, ?_⟩
      have hget := @get?_append plan
        ⟨other.id, decision.treatment, .selected, order, decision.statements⟩ habsent
      rcases hplan with hcoming | hcontains | hnothing
      · rcases List.mem_cons.1 hcoming with rfl | hcoming
        · exact .inr (.inl (contains_iff.2 ⟨_, by rw [hget, if_pos rfl]⟩))
        · exact .inl hcoming
      · obtain ⟨entry, hentry⟩ := contains_iff.1 hcontains
        refine .inr (.inl (contains_iff.2 ⟨entry, ?_⟩))
        rw [hget, if_neg, hentry]
        rintro heq
        rw [heq, habsent] at hentry
        cases hentry
      · exact .inr (.inr hnothing)

end Plan

end SchemaMigration
