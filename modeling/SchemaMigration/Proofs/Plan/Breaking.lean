import SchemaMigration.Proofs.Plan.Web

/-!
# Breaking cycles

A round of cycle breaking gives up something in every cyclic component of the graph
(`Staging.Round`). What it gives up is new (`Staging.Round.gains`): a constraint on whose account
steps precede each other is not detached, and a soft precedence was not severed. Only the
constraints of the snapshots can be detached, and only pairs of steps of the objects of the plan
severed (`Breaks.Bounded`), so there are no more rounds than `Staging.breakBound` says. The count of
rounds is therefore never used up, and each round changes something: what `Staging.acyclicGraph`
gives is what breaking cycles gives without a count (`Staging.breaking_acyclicGraph`).
-/

namespace SchemaMigration

/-! ## What is given up -/

namespace Breaks

variable {breaks next last : Breaks}

/-- What is given up in one list of breaks is given up in another one. -/
structure Within (breaks next : Breaks) : Prop where
  detached : breaks.detached ⊆ next.detached
  severed : breaks.severed ⊆ next.severed

/-- A constraint is detached that was not, or a pair of steps is severed that was not. -/
def Gains (breaks next : Breaks) : Prop :=
  (∃ id ∈ next.detached, id.kind = .constraint ∧ id ∉ breaks.detached) ∨
    ∃ pair ∈ next.severed, pair ∉ breaks.severed

/-- No break is listed twice. -/
structure Nodup (breaks : Breaks) : Prop where
  detached : breaks.detached.Nodup
  severed : breaks.severed.Nodup

/-- The number of breaks. -/
def count (breaks : Breaks) : Nat := breaks.detached.length + breaks.severed.length

/-- Giving up in two stages. -/
theorem Within.trans (h : breaks.Within next) (h' : next.Within last) : breaks.Within last :=
  ⟨List.Subset.trans h.detached h'.detached, List.Subset.trans h.severed h'.severed⟩

/-- What was gained is not lost again. -/
theorem Gains.mono (h : breaks.Gains next) (h' : next.Within last) : breaks.Gains last := by
  rcases h with ⟨id, hid, hkind, hnot⟩ | ⟨pair, hpair, hnot⟩
  · exact .inl ⟨id, h'.detached hid, hkind, hnot⟩
  · exact .inr ⟨pair, h'.severed hpair, hnot⟩

/-- A gain counts. -/
theorem Gains.count_lt (h : breaks.Gains next) (hwithin : breaks.Within next)
    (hbreaks : breaks.Nodup) : breaks.count < next.count := by
  have hdetached := (hbreaks.detached.subperm hwithin.detached).length_le
  have hsevered := (hbreaks.severed.subperm hwithin.severed).length_le
  unfold count
  rcases h with ⟨id, hid, -, hnot⟩ | ⟨pair, hpair, hnot⟩
  · have := ((List.nodup_cons.2 ⟨hnot, hbreaks.detached⟩).subperm
      (List.cons_subset.2 ⟨hid, hwithin.detached⟩)).length_le
    rw [List.length_cons] at this
    omega
  · have := ((List.nodup_cons.2 ⟨hnot, hbreaks.severed⟩).subperm
      (List.cons_subset.2 ⟨hpair, hwithin.severed⟩)).length_le
    rw [List.length_cons] at this
    omega

/-- A list with an element behind it, unless it is there. -/
def addNew {α : Type} [BEq α] (l : List α) (a : α) : List α :=
  if l.contains a then l else l ++ [a]

/-- Adding elements that are new adds each of them once. -/
theorem foldl_addNew {α : Type} [BEq α] [LawfulBEq α] (as : List α) : ∀ l : List α,
    (∀ b, b ∈ as.foldl addNew l ↔ b ∈ as ∨ b ∈ l) ∧ (l.Nodup → (as.foldl addNew l).Nodup) := by
  induction as with
  | nil => exact fun l => ⟨by simp, fun h => h⟩
  | cons a as ih =>
    intro l
    obtain ⟨hmem, hnodup⟩ := ih (addNew l a)
    simp only [List.foldl_cons, List.mem_cons, hmem, or_assoc]
    by_cases hin : a ∈ l
    · have hsame : addNew l a = l := if_pos (List.contains_iff_mem.2 hin)
      rw [hsame] at hnodup ⊢
      refine ⟨fun b => ?_, hnodup⟩
      rw [or_left_comm]
      exact or_congr_right ⟨.inr, fun h => h.elim (fun heq => heq ▸ hin) fun h => h⟩
    · have hnew : addNew l a = l ++ [a] := if_neg fun h => hin (List.contains_iff_mem.1 h)
      rw [hnew] at hnodup ⊢
      refine ⟨fun b => by simp [or_comm, or_left_comm], fun h => hnodup ?_⟩
      exact h.append (List.nodup_singleton _) (by simpa using hin)

/-- Detaching constraints adds those that are new. -/
theorem foldl_detach (ids : List ObjectId) : ∀ breaks : Breaks,
    ids.foldl detach breaks = { breaks with detached := ids.foldl addNew breaks.detached } := by
  induction ids with
  | nil => exact fun _ => rfl
  | cons id ids ih =>
    intro breaks
    have hone : breaks.detach id = { breaks with detached := addNew breaks.detached id } := by
      unfold detach addNew
      split <;> rfl
    rw [List.foldl_cons, ih, hone, List.foldl_cons]

/-- Severing pairs of steps adds those that are new. -/
theorem foldl_sever (pairs : List (StepKey × StepKey)) : ∀ breaks : Breaks,
    pairs.foldl sever breaks = { breaks with severed := pairs.foldl addNew breaks.severed } := by
  induction pairs with
  | nil => exact fun _ => rfl
  | cons pair pairs ih =>
    intro breaks
    have hone : breaks.sever pair = { breaks with severed := addNew breaks.severed pair } := by
      unfold sever addNew
      split <;> rfl
    rw [List.foldl_cons, ih, hone, List.foldl_cons]

end Breaks

namespace StepGraph

variable {graph : StepGraph} {breaks next : Breaks} {component : List StepKey}

/-- A component is broken by detaching the constraints on whose account there are precedences in it,
or if there are none by severing the soft ones. -/
theorem breakComponent_eq_ok (h : graph.breakComponent breaks component = .ok next) :
    ((∃ p ∈ graph.inside component, ∃ id, p.reason = .inline id) ∧
      (∀ id, id ∈ next.detached ↔
        (∃ p ∈ graph.inside component, p.reason = .inline id) ∨ id ∈ breaks.detached) ∧
      next.severed = breaks.severed ∧ (breaks.Nodup → next.Nodup)) ∨
    ((∃ p ∈ graph.inside component, p.reason = .soft) ∧
      (∀ pair, pair ∈ next.severed ↔
        (∃ p ∈ graph.inside component, p.reason = .soft ∧ (p.earlier, p.later) = pair) ∨
          pair ∈ breaks.severed) ∧
      next.detached = breaks.detached ∧ (breaks.Nodup → next.Nodup)) := by
  have hinline : ∀ id, id ∈ (graph.inside component).filterMap (·.reason.constraint?) ↔
      ∃ p ∈ graph.inside component, p.reason = .inline id := by
    intro id
    rw [List.mem_filterMap]
    refine exists_congr fun p => and_congr_right fun _ => ?_
    cases p.reason <;> simp [Reason.constraint?]
  have hsoft : ∀ pair, pair ∈ ((graph.inside component).filter (·.reason = .soft)).map
        (fun p => (p.earlier, p.later)) ↔
      ∃ p ∈ graph.inside component, p.reason = .soft ∧ (p.earlier, p.later) = pair := by
    simp [and_assoc]
  rw [breakComponent] at h
  split at h
  · next hsome =>
    obtain rfl := Except.ok.inj h
    obtain ⟨hmem, hnodup⟩ := Breaks.foldl_addNew
      ((graph.inside component).filterMap (·.reason.constraint?)) breaks.detached
    rw [Breaks.foldl_detach]
    refine .inl ⟨?_, fun id => ?_, rfl, fun h => ⟨hnodup h.detached, h.severed⟩⟩
    · rw [Bool.not_eq_true', List.isEmpty_eq_false_iff] at hsome
      obtain ⟨id, hid⟩ := List.exists_mem_of_ne_nil _ hsome
      obtain ⟨p, hp, hreason⟩ := (hinline id).1 hid
      exact ⟨p, hp, id, hreason⟩
    · rw [hmem, hinline]
  · split at h
    · next hsome =>
      obtain rfl := Except.ok.inj h
      obtain ⟨hmem, hnodup⟩ := Breaks.foldl_addNew
        (((graph.inside component).filter (·.reason = .soft)).map fun p => (p.earlier, p.later))
        breaks.severed
      rw [Breaks.foldl_sever]
      refine .inr ⟨?_, fun pair => ?_, rfl, fun h => ⟨h.detached, hnodup h.severed⟩⟩
      · rw [Bool.not_eq_true', List.isEmpty_eq_false_iff] at hsome
        obtain ⟨pair, hpair⟩ := List.exists_mem_of_ne_nil _ hsome
        obtain ⟨p, hp, hreason, -⟩ := (hsoft pair).1 hpair
        exact ⟨p, hp, hreason⟩
      · rw [hmem, hsoft]
    · cases h

/-- A component that cannot be broken is a fault that names it, and all precedences in it are
hard. -/
theorem breakComponent_eq_error {fault : MigrationError}
    (h : graph.breakComponent breaks component = .error fault) :
    fault = .ofCycle component ∧ ∀ p ∈ graph.inside component, p.reason = .hard := by
  rw [breakComponent] at h
  split at h
  · cases h
  · next hinline =>
    split at h
    · cases h
    · next hsoft =>
      refine ⟨(Except.error.inj h).symm, fun p hp => ?_⟩
      simp only [Bool.not_eq_true', Bool.not_eq_false, List.isEmpty_iff, List.filterMap_eq_nil_iff,
        List.map_eq_nil_iff, List.filter_eq_nil_iff] at hinline hsoft
      cases hreason : p.reason with
      | hard => rfl
      | inline id => simpa [hreason, Reason.constraint?] using hinline p hp
      | soft => simpa [hreason] using hsoft p hp

/-- Breaking a component takes no break back. -/
theorem within_of_breakComponent (h : graph.breakComponent breaks component = .ok next) :
    breaks.Within next := by
  rcases breakComponent_eq_ok h with ⟨-, hmem, hsevered, -⟩ | ⟨-, hmem, hdetached, -⟩
  · exact ⟨fun id hid => (hmem id).2 (.inr hid), hsevered ▸ List.Subset.refl _⟩
  · exact ⟨hdetached ▸ List.Subset.refl _, fun pair hpair => (hmem pair).2 (.inr hpair)⟩

end StepGraph

namespace Staging

variable {st : Staging} {breaks next : Breaks}

/-! ## Rounds -/

/-- One round: the graph is made with the breaks so far, and each of its cyclic components, of which
there are some, is broken. -/
def Round (st : Staging) (breaks next : Breaks) : Prop :=
  ∃ graph, { st with breaks }.stepGraph = .ok graph ∧ graph.cyclicComponents ≠ [] ∧
    graph.cyclicComponents.foldlM graph.breakComponent breaks = .ok next

/-- What breaking cycles round after round ends with, when nobody counts the rounds and nobody looks
whether they change anything. -/
inductive Breaking (st : Staging) : Breaks → Except MigrationError (StepGraph × Breaks) → Prop
  /-- The graph cannot be made. -/
  | fault {breaks : Breaks} {e : MigrationError} (graph : { st with breaks }.stepGraph = .error e) :
      Breaking st breaks (.error e)
  /-- No cycle is left. -/
  | done {breaks : Breaks} {graph : StepGraph} (made : { st with breaks }.stepGraph = .ok graph)
      (acyclic : graph.cyclicComponents = []) : Breaking st breaks (.ok (graph, breaks))
  /-- A component cannot be broken. -/
  | stuck {breaks : Breaks} {graph : StepGraph} {e : MigrationError}
      (made : { st with breaks }.stepGraph = .ok graph)
      (unbroken : graph.cyclicComponents.foldlM graph.breakComponent breaks = .error e) :
      Breaking st breaks (.error e)
  /-- Breaking goes on after a round. -/
  | round {breaks next : Breaks} {result : Except MigrationError (StepGraph × Breaks)}
      (first : st.Round breaks next) (rest : Breaking st next result) : Breaking st breaks result

/-- Breaking a component of the graph of a plan gives up what was not given up for this graph: what
a constraint causes is there because it travels with its table, and what is soft because it was not
severed. -/
theorem gains_of_breakComponent {graph : StepGraph} {component : List StepKey} {some : Breaks}
    (hgraph : { st with breaks }.stepGraph = .ok graph)
    (h : graph.breakComponent some component = .ok next) : breaks.Gains next := by
  obtain ⟨planned, -, rfl⟩ := stepGraph_iff.1 hgraph
  rcases StepGraph.breakComponent_eq_ok h with
    ⟨⟨p, hp, id, hreason⟩, hmem, -⟩ | ⟨⟨p, hp, hreason⟩, hmem, -⟩
  · have hasked := (mem_web_iff (by simp [hreason])).1 (StepGraph.mem_inside.1 hp).1
    obtain ⟨hkind, htravels, -⟩ := hasked.spec.2.2.2.2 id hreason
    refine .inl ⟨id, (hmem id).2 (.inl ⟨p, hp, hreason⟩), hkind, fun hdetached => ?_⟩
    simp [travels, hkind, hdetached] at htravels
  · exact .inr ⟨_, (hmem _).2 (.inl ⟨p, hp, hreason, rfl⟩),
      ((orderly_web planned).soft p (StepGraph.mem_inside.1 hp).1 hreason).2.2.2⟩

/-- Each round detaches a constraint that was not detached, or severs a pair of steps that was not
severed, and takes nothing back. -/
theorem Round.gains (h : st.Round breaks next) : breaks.Gains next ∧ breaks.Within next := by
  obtain ⟨graph, hgraph, hcyclic, h⟩ := h
  obtain ⟨component, components, hcomponents⟩ := List.exists_cons_of_ne_nil hcyclic
  rw [hcomponents, List.foldlM_cons, bind_eq_ok] at h
  obtain ⟨first, hfirst, h⟩ := h
  refine foldlM_preserves (fun later => breaks.Gains later ∧ breaks.Within later) h
    ⟨gains_of_breakComponent hgraph hfirst, StepGraph.within_of_breakComponent hfirst⟩ ?_
  intro _ _ some later hsome hlater
  have hwithin := StepGraph.within_of_breakComponent hlater
  exact ⟨hsome.1.mono hwithin, hsome.2.trans hwithin⟩

/-! ## The number of breaks -/

/-- The objects that steps can be about. -/
def objects (st : Staging) : List ObjectId :=
  (st.plan.old.statements ++ st.plan.new.statements).map (·.id) ++ st.plan.entries.map (·.id)

/-- The steps that there can be. -/
def possibleKeys (st : Staging) : List StepKey :=
  [StepKind.drop, .create, .alter, .passThrough].flatMap fun kind => st.objects.map (.mk kind)

end Staging

/-- Breaks that are of the constraints of the snapshots and of possible steps, each listed once. -/
structure Breaks.Bounded (st : Staging) (breaks : Breaks) : Prop where
  constraints : ∀ id ∈ breaks.detached, id.kind = .constraint ∧
    (st.plan.old.contains id = true ∨ st.plan.new.contains id = true)
  pairs : ∀ pair ∈ breaks.severed, pair.1 ∈ st.possibleKeys ∧ pair.2 ∈ st.possibleKeys
  nodup : breaks.Nodup

namespace Staging

variable {st : Staging} {breaks next : Breaks}

/-- What the snapshots hold is an object that steps can be about. -/
theorem mem_objects {id : ObjectId}
    (h : st.plan.old.contains id = true ∨ st.plan.new.contains id = true) : id ∈ st.objects := by
  refine List.mem_append_left _ (List.mem_map.2 ?_)
  rcases h with h | h <;> obtain ⟨s, hs, hid⟩ := Snapshot.contains_iff_exists_mem.1 h
  · exact ⟨s, List.mem_append_left _ hs, hid⟩
  · exact ⟨s, List.mem_append_right _ hs, hid⟩

/-- A step is possible if its object can have steps. -/
theorem mem_possibleKeys {key : StepKey} (h : key.id ∈ st.objects) : key ∈ st.possibleKeys :=
  List.mem_flatMap.2 ⟨key.kind, by cases key.kind <;> simp, List.mem_map_of_mem h⟩

/-- The steps of a graph are possible. -/
theorem keys_subset_possibleKeys {planned : List Step} (hplanned : st.plannedSteps = .ok planned) :
    (st.web planned).keys st planned ⊆ st.possibleKeys := by
  intro key hkey
  refine mem_possibleKeys ?_
  rw [Web.keys, allSteps, List.map_append, List.append_assoc, List.mem_append,
    List.mem_append] at hkey
  rcases hkey with hkey | hkey | hkey
  · obtain ⟨entry, hentry, hid, -⟩ := (key_mem_planned hplanned).1 hkey
    exact List.mem_append_right _ (hid ▸ List.mem_map_of_mem hentry)
  · obtain ⟨-, -, hheld, -⟩ := key_mem_detachedSteps.1 hkey
    unfold side at hheld
    split at hheld
    · exact mem_objects (.inl hheld)
    · exact mem_objects (.inr hheld)
  · obtain ⟨step, hstep, rfl⟩ := List.mem_map.1 hkey
    exact mem_objects (.inr ((orderly_web planned).passes step hstep).2.2)

/-- Breaking a component keeps breaks bounded. -/
theorem bounded_of_breakComponent {graph : StepGraph} {component : List StepKey} {some : Breaks}
    (hgraph : { st with breaks }.stepGraph = .ok graph) (hsome : some.Bounded st)
    (h : graph.breakComponent some component = .ok next) : next.Bounded st := by
  obtain ⟨planned, hplanned, rfl⟩ := stepGraph_iff.1 hgraph
  rcases StepGraph.breakComponent_eq_ok h with
    ⟨-, hmem, hsevered, hnodup⟩ | ⟨-, hmem, hdetached, hnodup⟩
  · refine ⟨fun id hid => ?_, fun pair hpair => hsome.pairs pair (hsevered ▸ hpair),
      hnodup hsome.nodup⟩
    rcases (hmem id).1 hid with ⟨p, hp, hreason⟩ | hid
    · have hasked := (mem_web_iff (by simp [hreason])).1 (StepGraph.mem_inside.1 hp).1
      obtain ⟨hkind, -, hheld⟩ := hasked.spec.2.2.2.2 id hreason
      exact ⟨hkind, hheld⟩
    · exact hsome.constraints id hid
  · refine ⟨fun id hid => hsome.constraints id (hdetached ▸ hid), fun pair hpair => ?_,
      hnodup hsome.nodup⟩
    rcases (hmem pair).1 hpair with ⟨p, hp, hreason, rfl⟩ | hpair
    · obtain ⟨hearlier, hlater, -⟩ :=
        (orderly_web planned).soft p (StepGraph.mem_inside.1 hp).1 hreason
      exact ⟨keys_subset_possibleKeys hplanned hearlier, keys_subset_possibleKeys hplanned hlater⟩
    · exact hsome.pairs pair hpair

/-- A round keeps breaks bounded. -/
theorem Round.bounded (h : st.Round breaks next) (hbreaks : breaks.Bounded st) :
    next.Bounded st := by
  obtain ⟨graph, hgraph, -, h⟩ := h
  exact foldlM_preserves (Breaks.Bounded st) h hbreaks fun _ _ _ _ hsome hlater =>
    bounded_of_breakComponent hgraph hsome hlater

/-- No break at all is bounded. -/
theorem bounded_nil (st : Staging) : Breaks.Bounded st {} :=
  ⟨by simp, by simp, ⟨List.nodup_nil, List.nodup_nil⟩⟩

/-- There are at most as many breaks as the bound says. -/
theorem count_le_breakBound (h : breaks.Bounded st) : breaks.count ≤ st.breakBound := by
  have hobjects : st.objects.length =
      st.plan.old.size + st.plan.new.size + st.plan.entries.length := by
    simp [objects, Snapshot.size, Nat.add_assoc]
  have hkeys : st.possibleKeys.length = 4 * st.objects.length := by
    simp [possibleKeys]
    omega
  have hdetached : breaks.detached.length ≤ st.objects.length :=
    (h.nodup.detached.subperm fun id hid => mem_objects (h.constraints id hid).2).length_le
  have hsevered : breaks.severed.length ≤ (st.possibleKeys ×ˢ st.possibleKeys).length :=
    (h.nodup.severed.subperm fun pair hpair => List.mem_product.2 (h.pairs pair hpair)).length_le
  rw [List.length_product, hkeys] at hsevered
  simp only [Breaks.count, breakBound, ← hobjects]
  omega

/-! ## The end of breaking -/

/-- Counting the rounds makes no difference if the count has room for all breaks that can be
made. -/
theorem breaking_acyclic {rounds : Nat} : ∀ {breaks : Breaks}, breaks.Bounded st →
    st.breakBound ≤ rounds + breaks.count → st.Breaking breaks (st.acyclic rounds breaks) := by
  induction rounds with
  | zero =>
    intro breaks hbreaks hcount
    rw [acyclic]
    cases hgraph : { st with breaks }.stepGraph with
    | error e => exact .fault hgraph
    | ok graph =>
      rw [ok_bind]
      cases hcomponents : graph.cyclicComponents with
      | nil => exact .done hgraph hcomponents
      | cons component components =>
        refine .stuck hgraph ?_
        rw [hcomponents, List.foldlM_cons]
        cases hbroken : graph.breakComponent breaks component with
        | error e => rw [(StepGraph.breakComponent_eq_error hbroken).1]; rfl
        | ok next =>
          -- All breaks are made that can be made, so there is none left to make.
          have hgains := (gains_of_breakComponent hgraph hbroken).count_lt
            (StepGraph.within_of_breakComponent hbroken) hbreaks.nodup
          have hbound := count_le_breakBound (bounded_of_breakComponent hgraph hbreaks hbroken)
          omega
  | succ rounds ih =>
    intro breaks hbreaks hcount
    rw [acyclic]
    cases hgraph : { st with breaks }.stepGraph with
    | error e => exact .fault hgraph
    | ok graph =>
      rw [ok_bind]
      cases hcomponents : graph.cyclicComponents with
      | nil => exact .done hgraph hcomponents
      | cons component components =>
        dsimp only
        rw [← hcomponents]
        cases hbroken : graph.cyclicComponents.foldlM graph.breakComponent breaks with
        | error e => exact .stuck hgraph hbroken
        | ok next =>
          have hround : st.Round breaks next :=
            ⟨graph, hgraph, hcomponents ▸ List.cons_ne_nil _ _, hbroken⟩
          have hgains := hround.gains.1.count_lt hround.gains.2 hbreaks.nodup
          have hne : next ≠ breaks := by
            rintro rfl
            exact Nat.lt_irrefl _ hgains
          change st.Breaking breaks
            (if next = breaks then .error (.ofCycle component) else st.acyclic rounds next)
          rw [if_neg hne]
          exact .round hround (ih (hround.bounded hbreaks) (by omega))

/-- The count of rounds is not used up, and each round changes something. -/
theorem breaking_acyclicGraph {plan : Plan} {extra : ExtraDependencies} :
    Breaking { plan, extra } {} (acyclicGraph { plan, extra }) :=
  breaking_acyclic (bounded_nil _) (Nat.le_add_right _ _)

section
variable {result other : Except MigrationError (StepGraph × Breaks)} {graph : StepGraph}

/-- Breaking fails if the graph cannot be made. -/
theorem Breaking.of_error (h : st.Breaking breaks result) {e : MigrationError}
    (hgraph : { st with breaks }.stepGraph = .error e) : result = .error e := by
  cases h with
  | fault hgraph' => rw [Except.error.inj (hgraph'.symm.trans hgraph)]
  | done hgraph' | stuck hgraph' => cases hgraph'.symm.trans hgraph
  | round hround =>
    obtain ⟨_, hgraph', -⟩ := hround
    cases hgraph'.symm.trans hgraph

/-- Breaking ends with a graph that has no cyclic component, fails if one cannot be broken, and goes
on with the breaks that have been made otherwise. -/
theorem Breaking.of_ok (h : st.Breaking breaks result)
    (hgraph : { st with breaks }.stepGraph = .ok graph) :
    (graph.cyclicComponents = [] → result = .ok (graph, breaks)) ∧
    (∀ e, graph.cyclicComponents.foldlM graph.breakComponent breaks = .error e →
      result = .error e) ∧
    ∀ next, graph.cyclicComponents ≠ [] →
      graph.cyclicComponents.foldlM graph.breakComponent breaks = .ok next →
      st.Breaking next result := by
  cases h with
  | fault hgraph' => cases hgraph'.symm.trans hgraph
  | done hgraph' hnil =>
    obtain rfl := Except.ok.inj (hgraph'.symm.trans hgraph)
    refine ⟨fun _ => rfl, fun e herror => ?_, fun next hcyclic => absurd hnil hcyclic⟩
    rw [hnil] at herror
    cases herror
  | stuck hgraph' herror =>
    obtain rfl := Except.ok.inj (hgraph'.symm.trans hgraph)
    refine ⟨fun hnil => ?_, fun e herror' => ?_, fun next _ hbroken => ?_⟩
    · rw [hnil] at herror
      cases herror
    · rw [Except.error.inj (herror.symm.trans herror')]
    · cases herror.symm.trans hbroken
  | round hround hrest =>
    obtain ⟨_, hgraph', hcyclic, hbroken⟩ := hround
    obtain rfl := Except.ok.inj (hgraph'.symm.trans hgraph)
    refine ⟨fun hnil => absurd hnil hcyclic, fun e herror => ?_, fun next _ hbroken' => ?_⟩
    · cases herror.symm.trans hbroken
    · rwa [← Except.ok.inj (hbroken.symm.trans hbroken')]

/-- There is only one thing that breaking ends with. -/
theorem Breaking.unique (h : st.Breaking breaks result) (hother : st.Breaking breaks other) :
    result = other := by
  induction h with
  | fault hgraph => exact (hother.of_error hgraph).symm
  | done hgraph hnil => exact ((hother.of_ok hgraph).1 hnil).symm
  | stuck hgraph herror => exact ((hother.of_ok hgraph).2.1 _ herror).symm
  | round hround _ ih =>
    obtain ⟨graph, hgraph, hcyclic, hbroken⟩ := hround
    exact ih ((hother.of_ok hgraph).2.2 _ hcyclic hbroken)

end

/-- Breaking ends with the graph of the breaks that some rounds made. -/
theorem Breaking.exists_rounds {result : Except MigrationError (StepGraph × Breaks)}
    (h : st.Breaking breaks result) : ∃ last, Relation.ReflTransGen st.Round breaks last ∧
      ((∃ e, { st with breaks := last }.stepGraph = .error e ∧ result = .error e) ∨
        ∃ graph, { st with breaks := last }.stepGraph = .ok graph ∧
          (graph.cyclicComponents = [] ∧ result = .ok (graph, last) ∨
            ∃ e, graph.cyclicComponents.foldlM graph.breakComponent last = .error e ∧
              result = .error e)) := by
  induction h with
  | fault hgraph => exact ⟨_, .refl, .inl ⟨_, hgraph, rfl⟩⟩
  | done hgraph hnil => exact ⟨_, .refl, .inr ⟨_, hgraph, .inl ⟨hnil, rfl⟩⟩⟩
  | stuck hgraph herror => exact ⟨_, .refl, .inr ⟨_, hgraph, .inr ⟨_, herror, rfl⟩⟩⟩
  | round hround _ ih =>
    obtain ⟨last, hrounds, hend⟩ := ih
    exact ⟨last, .head hround hrounds, hend⟩

/-- Any number of rounds keeps breaks bounded. -/
theorem bounded_of_rounds (h : Relation.ReflTransGen st.Round breaks next)
    (hbreaks : breaks.Bounded st) : next.Bounded st := by
  induction h with
  | refl => exact hbreaks
  | tail _ hround ih => exact hround.bounded ih

/-- A graph that breaking cycles gives is that of the plan with the breaks that were made. -/
theorem acyclicGraph_eq_ok {plan : Plan} {extra : ExtraDependencies} {graph : StepGraph}
    (h : acyclicGraph { plan, extra } = .ok (graph, breaks)) :
    stepGraph { plan, extra, breaks } = .ok graph ∧ graph.cyclicComponents = [] ∧
      breaks.Bounded { plan, extra } := by
  have hbreaking : Breaking { plan, extra } {} (acyclicGraph { plan, extra }) :=
    breaking_acyclicGraph
  rw [h] at hbreaking
  obtain ⟨last, hrounds, ⟨_, -, hdone⟩ | ⟨made, hmade, ⟨hnil, hdone⟩ | ⟨_, -, hdone⟩⟩⟩ :=
    hbreaking.exists_rounds
  · cases hdone
  · obtain ⟨rfl, rfl⟩ := Prod.mk.inj (Except.ok.inj hdone)
    exact ⟨hmade, hnil, bounded_of_rounds hrounds (bounded_nil _)⟩
  · cases hdone

end Staging

end SchemaMigration
