import SchemaMigration.Proofs.Plan.Search
import SchemaMigration.Proofs.Plan.Selection

/-!
# The order that untouched objects pass on

An object that is created or altered may need an object that no step touches, which needs others in
its turn, until one of them is created or altered: then the first step is to run after the last one
(`Staging.Passage`). Pass-through steps carry this order along where the search for them looked at
each object after the one that it needs. That is so for all chains of needs outside cycles, and for
those that all steps enter at one place, but not for every chain (`Staging.order_passed_on`): an
object that was looked at in vain while one that it needs was on the way stays without a
pass-through step.
-/

namespace SchemaMigration

/-- Precedences lead back along a list of steps: each step of it runs after the next one. -/
def StepGraph.LeadsBack (graph : StepGraph) (keys : List StepKey) : Prop :=
  keys.IsChain fun later earlier => graph.Before earlier later

/-- Precedences one after the other lead from the last step of a list to the first. -/
theorem StepGraph.transGen_of_leadsBack {graph : StepGraph} {first last : StepKey} :
    ∀ {between : List StepKey}, graph.LeadsBack (first :: between ++ [last]) →
      Relation.TransGen graph.Before last first
  | [], h => .single (List.isChain_cons_cons.1 h).1
  | _ :: _, h => (transGen_of_leadsBack (List.isChain_cons_cons.1 h).2).tail
      (List.isChain_cons_cons.1 h).1

namespace Staging

open Relation

variable {st : Staging} {planned : List Step}

/-! ## The moves that make a web -/

/-- How the web of all steps comes about: a need of a step is followed, or precedences of steps are
added. -/
inductive Web.Move (st : Staging) (planned : List Step) : Web → Web → Prop
  | need {step : Step} {need : ObjectId × Option ObjectId} (web : Web)
      (mem : step ∈ st.allSteps planned) (brings : st.Brings step need.2 need.1) :
      Move st planned web (st.needOf (st.allSteps planned) step.key web need)
  | add (web : Web) {precedences : List Precedence}
      (later : ∀ p ∈ precedences, p.later ∈ (st.allSteps planned).map (·.key)) :
      Move st planned web (web.add precedences)

/-- A web is made of moves through a list if it is with each element. -/
theorem moves_foldl {γ : Type} {f : Web → γ → Web} : ∀ {l : List γ} (web : Web),
    (∀ web, ∀ c ∈ l, ReflTransGen (Web.Move st planned) web (f web c)) →
      ReflTransGen (Web.Move st planned) web (l.foldl f web)
  | [], _, _ => .refl
  | c :: _, web, hf => (hf web c List.mem_cons_self).trans
      (moves_foldl (f web c) fun web c hc => hf web c (List.mem_cons_of_mem _ hc))

/-- Moves through a list go by each of its elements. -/
theorem exists_moves_foldl {γ : Type} {f : Web → γ → Web} {l : List γ} {c : γ} (hc : c ∈ l)
    (web : Web) (hf : ∀ web, ∀ c ∈ l, ReflTransGen (Web.Move st planned) web (f web c)) :
    ∃ middle, ReflTransGen (Web.Move st planned) web middle ∧
      ReflTransGen (Web.Move st planned) (f middle c) (l.foldl f web) := by
  obtain ⟨before, after, rfl⟩ := List.append_of_mem hc
  rw [List.foldl_append, List.foldl_cons]
  exact ⟨_, moves_foldl web fun web c hc => hf web c (List.mem_append_left _ hc),
    moves_foldl _ fun web c hc => hf web c (List.mem_append_right _ (List.mem_cons_of_mem _ hc))⟩

/-- Following the needs of a step, and then adding what else it asks for. -/
theorem exists_precedencesOf_eq {step : Step} (hstep : step ∈ st.allSteps planned)
    (hkind : step.key.kind = .create ∨ step.key.kind = .alter) :
    ∃ precedences : List Precedence,
      (∀ p ∈ precedences, p.later ∈ (st.allSteps planned).map (·.key)) ∧
      ∀ web, st.precedencesOf (st.allSteps planned) planned web step =
        ((foreignNeeds st.plan.new step.key.id st.newNeeds
          (st.carried step.statement (st.createdChildren step.key))).foldl
            (st.needOf (st.allSteps planned) step.key) web).add precedences := by
  rcases hkind with hkind | hkind
  · refine ⟨st.afterDrops (st.allSteps planned) planned step, fun p hp => ?_, fun web => ?_⟩
    · rw [(afterDrops_spec hp).2.1]
      exact List.mem_map_of_mem hstep
    · simp [precedencesOf, creation, hkind, createdChildren]
  · refine ⟨st.beforeReleased (st.allSteps planned) step, fun p hp => (beforeReleased_spec hp).2.1,
      fun web => ?_⟩
    simp [precedencesOf, creation, hkind, createdChildren]

/-- The precedences of a step are collected in moves. -/
theorem moves_precedencesOf (hplanned : st.plannedSteps = .ok planned) {step : Step}
    (hstep : step ∈ st.allSteps planned) (web : Web) :
    ReflTransGen (Web.Move st planned) web
      (st.precedencesOf (st.allSteps planned) planned web step) := by
  by_cases hkind : step.key.kind = .create ∨ step.key.kind = .alter
  · obtain ⟨precedences, hlater, heq⟩ := exists_precedencesOf_eq hstep hkind
    rw [heq]
    refine ReflTransGen.tail (moves_foldl web fun web need hneed => ?_) (.add _ hlater)
    exact .single (.need web hstep ((brings_iff hkind).1 hneed))
  · have hpass := kind_ne_passThrough hplanned (List.mem_map_of_mem hstep)
    have hdrop : step.key.kind = .drop := by
      cases h : step.key.kind <;> simp_all
    simp only [precedencesOf, hdrop]
    exact .single (.add web fun p hp => (removal_spec hp).2.1)

/-- The web of all steps is made of moves. -/
theorem moves_web (hplanned : st.plannedSteps = .ok planned) :
    ReflTransGen (Web.Move st planned) {} (st.web planned) :=
  moves_foldl {} fun web _ hstep => moves_precedencesOf hplanned hstep web

/-- Every need of a step that creates or alters is followed at some time. -/
theorem exists_moves_of_brings (hplanned : st.plannedSteps = .ok planned) {step : Step}
    (hstep : step ∈ st.allSteps planned) {need : ObjectId × Option ObjectId}
    (hbrings : st.Brings step need.2 need.1) :
    ∃ web, ReflTransGen (Web.Move st planned) {} web ∧
      ReflTransGen (Web.Move st planned) (st.needOf (st.allSteps planned) step.key web need)
        (st.web planned) := by
  obtain ⟨start, hstart, hrest⟩ := exists_moves_foldl hstep {} fun web _ hstep =>
    moves_precedencesOf hplanned hstep web
  obtain ⟨precedences, hlater, heq⟩ := exists_precedencesOf_eq hstep hbrings.kind
  obtain ⟨web, hweb, hneeds⟩ := exists_moves_foldl ((brings_iff hbrings.kind).2 hbrings) start
    fun web _ hneed => .single (.need web hstep ((brings_iff hbrings.kind).1 hneed))
  refine ⟨web, hstart.trans hweb, (hneeds.tail (.add _ hlater)).trans ?_⟩
  rwa [← heq]

/-! ## What moves keep -/

/-- Precedences that do not end in a pass-through step leave what is known as it is. -/
theorem Web.Searched.add {steps : List Step} {path : List ObjectId} {web : Web}
    (h : web.Searched st steps path) {precedences : List Precedence}
    (hlater : ∀ p ∈ precedences, p.later.kind ≠ .passThrough) :
    (web.add precedences).Searched st steps path where
  nodup := h.nodup
  clear := h.clear
  passes := h.passes
  explored newer id step older heq :=
    (h.explored newer id step older heq).mono (List.subset_append_left _ _)
  closed := h.closed
  origin p hp hkind := (List.mem_append.1 hp).elim (h.origin p · hkind)
    fun hp => absurd hkind (hlater p hp)

/-- Adding precedences forgets nothing. -/
theorem Web.grows_add (web : Web) (precedences : List Precedence) :
    web.Grows (web.add precedences) :=
  ⟨List.suffix_refl _, List.subset_append_left _ _⟩

/-- Following a need of a step is a search, and the step runs after what the search found. -/
theorem exists_found_needOf {steps : List Step} {web : Web} (hsevered : st.breaks.severed = [])
    (hweb : web.Searched st steps []) (key : StepKey) (need : ObjectId × Option ObjectId) :
    ∃ next found precedences, web.Found st steps [] need.1 next found ∧
      st.needOf steps key web need = next.add precedences ∧
      (∀ p ∈ precedences, p.later = key) ∧
      ∀ source, found = some source → source ≠ key →
        ∃ reason, ⟨source, key, reason⟩ ∈ precedences := by
  have hprecede : ∀ source reason, (∀ p ∈ st.precede source key reason, p.later = key) ∧
      (source ≠ key → ⟨source, key, reason⟩ ∈ st.precede source key reason) := fun source reason =>
    ⟨fun p hp => by rw [(mem_precede_iff.1 hp).1], fun hne =>
      mem_precede_iff.2 ⟨rfl, hne, fun _ => by rw [hsevered]; exact List.not_mem_nil⟩⟩
  have hfound : web.Found st steps [] need.1
      (st.sourceAlong steps (st.plan.new.size + 1) [] web need.1).1
      (st.sourceAlong steps (st.plan.new.size + 1) [] web need.1).2 :=
    found_sourceAlong hweb fun hidle => found_passThrough hsevered hweb hidle Way.nil
      (fun _ _ h => by cases h) (Nat.lt_succ_self st.plan.new.size)
  unfold sourceAlong at hfound
  unfold needOf source
  cases hinstaller : st.installer? steps need.1 with
  | some installer =>
    rw [hinstaller] at hfound
    refine ⟨web, some installer.1, _, hfound, rfl, (hprecede _ _).1, fun source heq hne => ?_⟩
    obtain rfl := Option.some.inj heq
    exact ⟨_, (hprecede _ _).2 hne⟩
  | none =>
    rw [hinstaller] at hfound
    simp only at hfound ⊢
    cases hstep : (st.passThrough steps (st.plan.new.size + 1) [] web need.1).2 with
    | none =>
      rw [hstep] at hfound
      exact ⟨_, none, [], hfound, by simp [Web.add], by simp, fun _ h => by cases h⟩
    | some earlier =>
      rw [hstep] at hfound
      refine ⟨_, some earlier, _, hfound, rfl, (hprecede _ _).1, fun source heq hne => ?_⟩
      obtain rfl := Option.some.inj heq
      exact ⟨_, (hprecede _ _).2 hne⟩

section
variable (hplanned : st.plannedSteps = .ok planned) (hsevered : st.breaks.severed = [])
include hplanned hsevered

/-- A move keeps what is known right and forgets nothing. -/
theorem Web.Move.searched {web next : Web} (hmove : Web.Move st planned web next)
    (h : web.Searched st (st.allSteps planned) []) :
    next.Searched st (st.allSteps planned) [] ∧ web.Grows next := by
  cases hmove with
  | @need step need _ hstep hbrings =>
    obtain ⟨grown, found, precedences, hfound, heq, hlater, -⟩ :=
      exists_found_needOf hsevered h step.key need
    rw [heq]
    refine ⟨hfound.searched.add fun p hp => ?_, hfound.grows.trans (Web.grows_add _ _)⟩
    rw [hlater p hp]
    exact kind_ne_passThrough hplanned (List.mem_map_of_mem hstep)
  | add _ hlater =>
    exact ⟨h.add fun p hp => kind_ne_passThrough hplanned (hlater p hp), Web.grows_add _ _⟩

/-- Moves keep what is known right and forget nothing. -/
theorem searched_of_moves {web next : Web} (hmoves : ReflTransGen (Web.Move st planned) web next)
    (h : web.Searched st (st.allSteps planned) []) :
    next.Searched st (st.allSteps planned) [] ∧ web.Grows next := by
  induction hmoves with
  | refl => exact ⟨h, .refl web⟩
  | tail _ hmove ih =>
    obtain ⟨hsearched, hgrows⟩ := hmove.searched hplanned hsevered ih.1
    exact ⟨hsearched, ih.2.trans hgrows⟩

omit hplanned hsevered in
/-- Nothing is known at first. -/
theorem searched_nil : Web.Searched st (st.allSteps planned) [] {} := by
  constructor <;> simp

/-- What is known of objects after all steps is right. -/
theorem searched_web : (st.web planned).Searched st (st.allSteps planned) [] :=
  (searched_of_moves hplanned hsevered (moves_web hplanned) searched_nil).1

/-- What a step needs is known in the end if it is untouched, and the step runs after whatever the
need leads on to. -/
theorem web_of_brings {step : Step} (hstep : step ∈ st.allSteps planned)
    {constraint : Option ObjectId} {need : ObjectId} (hbrings : st.Brings step constraint need) :
    (st.Untouched (st.allSteps planned) need → need ∈ (st.web planned).known.map (·.1)) ∧
      ∀ source, st.LeadsOn (st.allSteps planned) (st.web planned).known need source →
        source ≠ step.key → (st.web planned).Before source step.key := by
  obtain ⟨web, hbefore, hafter⟩ := exists_moves_of_brings hplanned hstep
    (show st.Brings step (need, constraint).2 (need, constraint).1 from hbrings)
  have hweb := (searched_of_moves hplanned hsevered hbefore searched_nil).1
  obtain ⟨next, found, precedences, hfound, heq, hlater, hrun⟩ :=
    exists_found_needOf hsevered hweb step.key (need, constraint)
  have hadd : (next.add precedences).Searched st (st.allSteps planned) [] :=
    hfound.searched.add fun p hp => by
      rw [hlater p hp]
      exact kind_ne_passThrough hplanned (List.mem_map_of_mem hstep)
  rw [heq] at hafter
  obtain ⟨hend, hgrows⟩ := searched_of_moves hplanned hsevered hafter hadd
  have hknown : st.Untouched (st.allSteps planned) need → need ∈ next.known.map (·.1) :=
    fun huntouched => (hfound.settled huntouched).resolve_right List.not_mem_nil
  refine ⟨fun huntouched => hgrows.ids (hknown huntouched), fun source hleads hne => ?_⟩
  have hleads' : st.LeadsOn (st.allSteps planned) next.known need source :=
    hleads.imp_right fun ⟨hnone, hmem⟩ => ⟨hnone, hend.mem_of_grows hgrows
      (hknown (hend.untouched (List.mem_map_of_mem hmem))) hmem⟩
  obtain ⟨reason, hp⟩ := hrun source ((hfound.leadsOn source).2 hleads') hne
  exact ⟨reason, hgrows.precedences (List.mem_append_right _ hp)⟩

end

/-! ## Chains of untouched objects -/

/-- A chain of untouched objects: each of them needs the next one, and the last one needs an
object at which the chain ends. -/
inductive Chain (st : Staging) (steps : List Step) (goal : ObjectId) : List ObjectId → Prop
  | last {id : ObjectId} (untouched : st.Untouched steps id)
      (needs : st.plan.new.Needs st.extra.new id goal) : Chain st steps goal [id]
  | link {id next : ObjectId} {rest : List ObjectId} (untouched : st.Untouched steps id)
      (needs : st.plan.new.Needs st.extra.new id next)
      (further : Chain st steps goal (next :: rest)) : Chain st steps goal (id :: next :: rest)

/-- An object was looked at before another one that needs it. -/
def Web.Behind (web : Web) (dependent need : ObjectId) : Prop :=
  ∃ newer step older, web.known = newer ++ (dependent, step) :: older ∧ need ∈ older.map (·.1)

section
variable {steps : List Step} {goal : ObjectId} {chain : List ObjectId}

/-- All objects of a chain are untouched. -/
theorem Chain.untouched (hchain : st.Chain steps goal chain) :
    ∀ id ∈ chain, st.Untouched steps id := by
  induction hchain with
  | last huntouched => simpa using huntouched
  | link huntouched _ _ ih => exact List.forall_mem_cons.2 ⟨huntouched, ih⟩

/-- The objects of a chain lean on each other. -/
theorem Chain.leans (hchain : st.Chain steps goal chain) : chain.IsChain (st.Leans steps) := by
  induction hchain with
  | last => exact .singleton _
  | link huntouched hneeds hfurther ih =>
    exact .cons_cons ⟨⟨huntouched, hfurther.untouched _ List.mem_cons_self⟩, hneeds⟩ ih

/-- One object of a chain needs the object at its end. -/
theorem Chain.exists_last (hchain : st.Chain steps goal chain) :
    ∃ id ∈ chain, st.plan.new.Needs st.extra.new id goal := by
  induction hchain with
  | last _ hneeds => exact ⟨_, List.mem_cons_self, hneeds⟩
  | link _ _ _ ih => exact ih.imp fun _ h => ⟨List.mem_cons_of_mem _ h.1, h.2⟩

variable {web : Web} (hweb : web.Searched st steps [])
include hweb

/-- With its first object all objects of a chain are known. -/
theorem Chain.known {first : ObjectId} (hchain : st.Chain steps goal (first :: chain))
    (hfirst : first ∈ web.known.map (·.1)) : ∀ id ∈ first :: chain, id ∈ web.known.map (·.1) :=
  hchain.leans.induction (· ∈ web.known.map (·.1)) (first :: chain)
    (fun _ _ hleans hid => (hweb.closed _ hid _ hleans).resolve_right List.not_mem_nil)
    fun _ => hfirst

/-- The pass-through step that an object is known to have is its own. -/
theorem Web.Searched.key_eq {id : ObjectId} {key : StepKey} (h : (id, some key) ∈ web.known) :
    key = ⟨.passThrough, id⟩ := by
  obtain ⟨newer, older, heq⟩ := List.append_of_mem h
  exact (hweb.explored newer id _ older heq).key key rfl

/-- An object has a pass-through step behind what its needs led on to when they were looked at. -/
theorem Web.Searched.pass_of_leadsOn (hsevered : st.breaks.severed = [])
    {newer older : List (ObjectId × Option StepKey)} {id need : ObjectId} {step : Option StepKey}
    {key : StepKey} (heq : web.known = newer ++ (id, step) :: older)
    (hneed : st.plan.new.Needs st.extra.new id need) (hleads : st.LeadsOn steps older need key)
    (hne : key ≠ ⟨.passThrough, id⟩) :
    (id, some ⟨.passThrough, id⟩) ∈ web.known ∧ web.Before key ⟨.passThrough, id⟩ := by
  obtain ⟨rfl, hprecede⟩ := (hweb.explored newer id step older heq).follows need key hneed hleads
  refine ⟨heq ▸ List.mem_append_right _ List.mem_cons_self, .soft, hprecede ?_⟩
  exact mem_precede_iff.2 ⟨rfl, hne, fun _ => by rw [hsevered]; exact List.not_mem_nil⟩

/-- An object that needs what a step installs has a pass-through step behind that step. -/
theorem Web.Searched.pass_of_installer (hsevered : st.breaks.severed = []) {id : ObjectId}
    {x : StepKey} {reason : Reason} (hid : id ∈ web.known.map (·.1))
    (hneed : st.plan.new.Needs st.extra.new id goal)
    (hgoal : st.installer? steps goal = some (x, reason)) (hx : x.kind ≠ .passThrough) :
    (id, some ⟨.passThrough, id⟩) ∈ web.known ∧ web.Before x ⟨.passThrough, id⟩ := by
  obtain ⟨⟨_, step⟩, hmem, rfl⟩ := List.mem_map.1 hid
  obtain ⟨newer, older, heq⟩ := List.append_of_mem hmem
  exact hweb.pass_of_leadsOn hsevered heq hneed (.inl ⟨reason, hgoal⟩) fun h => hx (by rw [h])

/-- An object has a pass-through step behind that of an object that it needs, if that one was looked
at before. -/
theorem Web.Searched.pass_of_behind (hsevered : st.breaks.severed = []) {dependent need : ObjectId}
    (hleans : st.Leans steps dependent need) (hbehind : web.Behind dependent need)
    (hpass : (need, some ⟨.passThrough, need⟩) ∈ web.known) :
    (dependent, some ⟨.passThrough, dependent⟩) ∈ web.known ∧
      web.Before ⟨.passThrough, need⟩ ⟨.passThrough, dependent⟩ := by
  obtain ⟨newer, step, older, heq, hin⟩ := hbehind
  obtain ⟨⟨need, found⟩, hmem, rfl⟩ := List.mem_map.1 hin
  have hknown : ∀ entry ∈ older, entry ∈ web.known := fun entry hentry =>
    heq ▸ List.mem_append_right _ (List.mem_cons_of_mem _ hentry)
  obtain rfl : found = some ⟨.passThrough, need⟩ := hweb.eq_of_mem (hknown _ hmem) hpass
  refine hweb.pass_of_leadsOn hsevered heq hleans.needs
    (.inr ⟨(untouched_iff.1 hleans.untouched.2).2, hmem⟩) fun hsame => ?_
  have hnodup := hweb.nodup
  rw [heq, List.map_append, List.map_cons] at hnodup
  obtain rfl : need = dependent := congrArg StepKey.id hsame
  exact (List.nodup_cons.1 (List.nodup_append.1 hnodup).2.1).1 hin

/-- A precedence between two pass-through steps is there if the later one was looked at after the
earlier one. -/
theorem Web.Searched.behind_of_before {dependent need : ObjectId}
    (hsteps : ∀ key ∈ steps.map (·.key), key.kind ≠ .passThrough)
    (hbefore : web.Before ⟨.passThrough, need⟩ ⟨.passThrough, dependent⟩) :
    web.Behind dependent need := by
  obtain ⟨reason, hp⟩ := hbefore
  obtain ⟨newer, id, older, heq, other, -, hleads⟩ := hweb.origin _ hp rfl
  have hown := (hweb.explored newer id _ older heq).key _ rfl
  obtain rfl : dependent = id := congrArg StepKey.id hown
  rcases hleads with ⟨_, hinstaller⟩ | ⟨-, hmem⟩
  · refine absurd rfl (hsteps ⟨.passThrough, need⟩ ?_)
    rcases installer?_eq_some.1 hinstaller with ⟨-, -, hkey⟩ | ⟨-, -, -, hkey⟩ |
      ⟨-, -, -, -, -, -, hkey⟩ <;> exact hkey
  · have hkey : (⟨.passThrough, need⟩ : StepKey) = ⟨.passThrough, other⟩ :=
      hweb.key_eq (heq ▸ List.mem_append_right _ (List.mem_cons_of_mem _ hmem))
    obtain rfl : need = other := congrArg StepKey.id hkey
    exact ⟨newer, _, older, heq, List.mem_map_of_mem hmem⟩

/-- What an object needs was looked at before it unless it leads back to it. -/
theorem Web.Searched.behind_of_leans {dependent need : ObjectId}
    (hid : dependent ∈ web.known.map (·.1)) (hleans : st.Leans steps dependent need)
    (hback : ¬ ReflTransGen (st.Leans steps) need dependent) : web.Behind dependent need := by
  obtain ⟨⟨_, step⟩, hmem, rfl⟩ := List.mem_map.1 hid
  obtain ⟨newer, older, heq⟩ := List.append_of_mem hmem
  exact ⟨newer, step, older, heq,
    ((hweb.explored newer _ step older heq).looked need hleans).resolve_right hback⟩

/-- The objects of a chain outside cycles were looked at one after the other, from its end. -/
theorem Chain.behind (hchain : st.Chain steps goal chain)
    (hknown : ∀ id ∈ chain, id ∈ web.known.map (·.1))
    (hback : chain.IsChain fun dependent need => ¬ ReflTransGen (st.Leans steps) need dependent) :
    chain.IsChain web.Behind := by
  induction hchain with
  | last => exact .singleton _
  | @link id next rest huntouched hneeds hfurther ih =>
    obtain ⟨hlink, hrest⟩ := List.isChain_cons_cons.1 hback
    refine .cons_cons ?_
      (ih (fun other hother => hknown other (List.mem_cons_of_mem _ hother)) hrest)
    exact hweb.behind_of_leans (hknown id List.mem_cons_self)
      ⟨⟨huntouched, hfurther.untouched next List.mem_cons_self⟩, hneeds⟩ hlink

/-- A chain whose objects were looked at one after the other, from its end, is one of pass-through
steps. -/
theorem Chain.passes (hsevered : st.breaks.severed = []) {x : StepKey} {reason : Reason}
    (hgoal : st.installer? steps goal = some (x, reason)) (hx : x.kind ≠ .passThrough)
    (hchain : st.Chain steps goal chain) (hknown : ∀ id ∈ chain, id ∈ web.known.map (·.1))
    (hbehind : chain.IsChain web.Behind) :
    (∀ id ∈ chain, (id, some ⟨.passThrough, id⟩) ∈ web.known) ∧
      (chain.map (StepKey.mk .passThrough) ++ [x]).IsChain
        fun later earlier => web.Before earlier later := by
  induction hchain with
  | @last id _ hneeds =>
    obtain ⟨hpass, hbefore⟩ :=
      hweb.pass_of_installer hsevered (hknown id List.mem_cons_self) hneeds hgoal hx
    exact ⟨by simpa using hpass, List.isChain_pair.2 hbefore⟩
  | @link id next rest huntouched hneeds hfurther ih =>
    obtain ⟨hlink, hrest⟩ := List.isChain_cons_cons.1 hbehind
    obtain ⟨hpasses, hcarried⟩ :=
      ih (fun other hother => hknown other (List.mem_cons_of_mem _ hother)) hrest
    obtain ⟨hpass, hbefore⟩ := hweb.pass_of_behind hsevered
      ⟨⟨huntouched, hfurther.untouched next List.mem_cons_self⟩, hneeds⟩ hlink
      (hpasses next List.mem_cons_self)
    exact ⟨List.forall_mem_cons.2 ⟨hpass, hpasses⟩, .cons_cons hbefore hcarried⟩

end

/-! ## Where the steps that lead to a chain enter it -/

section
variable {first : ObjectId} {rest : List ObjectId} {goal : ObjectId} {x : StepKey} {reason : Reason}
variable (hplanned : st.plannedSteps = .ok planned) (hsevered : st.breaks.severed = [])
variable (hchain : st.Chain (st.allSteps planned) goal (first :: rest))
variable (hgoal : st.installer? (st.allSteps planned) goal = some (x, reason))
variable (hx : x.kind ≠ .passThrough)
include hplanned hsevered hchain hgoal hx

/-- As long as the steps enter a chain at its first object only, either nothing of the chain is
known or the order goes through to the first object. -/
theorem entered_of_moves
    (henters : ∀ step ∈ st.allSteps planned, ∀ constraint need, st.Brings step constraint need →
      ∀ id ∈ first :: rest, ReflTransGen (st.Leans (st.allSteps planned)) need id → need = first)
    {web : Web} (hmoves : ReflTransGen (Web.Move st planned) {} web) :
    (∀ id ∈ first :: rest, id ∉ web.known.map (·.1)) ∨
      (first, some ⟨.passThrough, first⟩) ∈ web.known ∧
        ReflTransGen web.Before x ⟨.passThrough, first⟩ := by
  induction hmoves with
  | refl => simp
  | @tail web next hbefore hmove ih =>
    have hweb := (searched_of_moves hplanned hsevered hbefore searched_nil).1
    have hgrows := (hmove.searched hplanned hsevered hweb).2
    rcases ih with hunknown | ⟨hpass, horder⟩
    · cases hmove with
      | add => exact .inl hunknown
      | @need step need _ hstep hbrings =>
        obtain ⟨grown, found, precedences, hfound, heq, -, -⟩ :=
          exists_found_needOf hsevered hweb step.key need
        rw [heq] at hgrows ⊢
        by_cases hnew : ∃ id ∈ first :: rest, id ∈ grown.known.map (·.1)
        · obtain ⟨id, hid, hknown⟩ := hnew
          obtain ⟨huntouched, hleans⟩ := (hfound.reached id hknown).resolve_left (hunknown id hid)
          obtain ⟨_, constraint⟩ := need
          obtain rfl := henters step hstep constraint _ hbrings id hid hleans
          -- The search began at the first object, so it went along the whole chain.
          have hfirst := (hfound.settled huntouched).resolve_right List.not_mem_nil
          obtain ⟨last, hlast, hneeds⟩ := hchain.exists_last
          obtain ⟨hlastPass, hlastBefore⟩ := hfound.searched.pass_of_installer hsevered
            (hchain.known hfound.searched hfirst last hlast) hneeds hgoal hx
          obtain ⟨source, hsource, horder⟩ :=
            (hfound.joined last _ hlastPass).resolve_left (hunknown last hlast)
          have hpass := ((hfound.leadsOn source).1 hsource).resolve_left fun ⟨_, hinstalled⟩ => by
            rw [(untouched_iff.1 huntouched).2] at hinstalled
            cases hinstalled
          obtain rfl := hfound.searched.key_eq hpass.2
          refine .inr ⟨hpass.2, ?_⟩
          exact (Web.grows_add grown precedences).chain (.head hlastBefore horder)
        · exact .inl fun id hid hknown => hnew ⟨id, hid, hknown⟩
    · exact .inr ⟨hgrows.known.subset hpass, hgrows.chain horder⟩

end

/-! ## The graph of all steps -/

/-- What a step that creates or alters needs from outside its object: what the object needs, or what
a child that is created with it does. -/
structure Wants (st : Staging) (key : StepKey) (need : ObjectId) : Prop where
  kind : key.kind = .create ∨ key.kind = .alter
  needs : st.plan.new.Needs st.extra.new key.id need ∨ key.kind = .create ∧
    ∃ child ∈ st.plan.new.children key.id, st.travels child.id = true ∧
      st.plan.new.Needs st.extra.new child.id need
  outside : need ≠ key.id ∧ st.plan.new.isDescendant need key.id = false

/-- What a step wants is what it brings along. -/
theorem wants_iff (hplanned : st.plannedSteps = .ok planned) {step : Step}
    (hstep : step ∈ st.allSteps planned) {need : ObjectId} :
    st.Wants step.key need ↔ ∃ constraint, st.Brings step constraint need := by
  have hstatement : step.key.kind = .create ∨ step.key.kind = .alter →
      st.plan.new.get? step.key.id = some step.statement := fun hkind => by
    have hs := statement?_of_mem_allSteps hplanned hstep
    rcases hkind with hkind | hkind <;> simpa only [statement?, side, hkind] using hs
  constructor
  · rintro ⟨hkind, hneeds | ⟨hcreate, child, hchild, htravels, hneeds⟩, houtside⟩
    · exact ⟨none, hkind, ⟨_, List.mem_cons_self,
        (mem_newNeeds_iff (hstatement hkind)).2 hneeds⟩, houtside⟩
    · obtain ⟨constraint, hcarried⟩ : ∃ constraint,
          (child, constraint) ∈ st.carried step.statement (st.createdChildren step.key) :=
        exists_mem_carried (by rwa [createdChildren, if_pos hcreate]) htravels
      exact ⟨constraint, hkind, ⟨child, hcarried,
        (mem_newNeeds_iff (Snapshot.get?_of_mem_children hchild)).2 hneeds⟩, houtside⟩
  · rintro ⟨constraint, hkind, ⟨s, hcarried, hneed⟩, houtside⟩
    refine ⟨hkind, ?_, houtside⟩
    rcases mem_carried hcarried with rfl | ⟨hchild, htravels⟩
    · exact .inl ((mem_newNeeds_iff (hstatement hkind)).1 hneed)
    · rw [createdChildren] at hchild
      split at hchild
      · next hcreate =>
        exact .inr ⟨hcreate, s, hchild, htravels,
          (mem_newNeeds_iff (Snapshot.get?_of_mem_children hchild)).1 hneed⟩
      · cases hchild

/-- What has a step of its own that creates or alters it is brought to its new form by that step. -/
theorem installer?_of_own (hplanned : st.plannedSteps = .ok planned) (hplan : st.plan.Distinct)
    (hdetached : st.breaks.detached = []) {key : StepKey}
    (hkey : key ∈ (st.allSteps planned).map (·.key))
    (hkind : key.kind = .create ∨ key.kind = .alter) :
    st.installer? (st.allSteps planned) key.id = some (key, .hard) := by
  obtain ⟨kind, id⟩ := key
  rw [installer?_eq_some]
  rcases hkind with rfl | rfl
  · exact .inl ⟨rfl, rfl, hkey⟩
  · refine .inr (.inl ⟨rfl, rfl, fun hcreate => ?_, hkey⟩)
    have hall : st.allSteps planned = planned := by
      simp [allSteps, detachedSteps, hdetached, ObjectId.sortedSet]
    rw [hall, key_mem_planned hplanned] at hkey hcreate
    obtain ⟨entry, hentry, hid, halters⟩ := hkey
    obtain ⟨other, hother, hid', hcreates⟩ := hcreate
    obtain rfl : entry = other :=
      List.inj_on_of_nodup_map hplan hentry hother (hid.trans hid'.symm)
    simp only [asks, Bool.and_eq_true] at halters hcreates
    cases htreatment : entry.treatment <;>
      simp [htreatment, Treatment.creates, Treatment.alters] at halters hcreates

section
variable {steps passes : List Step} (hpasses : ∀ step ∈ passes, step.key.kind = .passThrough)
include hpasses

/-- Pass-through steps touch nothing. -/
theorem untouched_append {id : ObjectId} :
    st.Untouched (steps ++ passes) id ↔ st.Untouched steps id := by
  have hinstalls : ∀ key, st.Installs (steps ++ passes) key id ↔ st.Installs steps key id := by
    intro key
    rw [Installs, Installs, List.map_append, List.mem_append]
    refine and_congr_left fun hkey => or_iff_left fun hpass => ?_
    obtain ⟨step, hstep, rfl⟩ := List.mem_map.1 hpass
    have hkind := hpasses step hstep
    rcases hkey with hkey | hkey | ⟨-, -, hkey⟩ <;> rw [hkey] at hkind <;> cases hkind
  exact ⟨fun h => ⟨h.held, fun key => mt (hinstalls key).2 (h.idle key)⟩,
    fun h => ⟨h.held, fun key => mt (hinstalls key).1 (h.idle key)⟩⟩

/-- Objects lean on each other whatever pass-through steps there are. -/
theorem leans_append : st.Leans (steps ++ passes) = st.Leans steps := by
  funext dependent need
  refine propext ⟨fun h => ⟨?_, h.needs⟩, fun h => ⟨?_, h.needs⟩⟩
  · simpa only [untouched_append hpasses] using h.untouched
  · simpa only [untouched_append hpasses] using h.untouched

/-- Chains are the same whatever pass-through steps there are. -/
theorem chain_of_append {goal : ObjectId} {chain : List ObjectId}
    (h : st.Chain (steps ++ passes) goal chain) : st.Chain steps goal chain := by
  induction h with
  | last huntouched hneeds => exact .last ((untouched_append hpasses).1 huntouched) hneeds
  | link huntouched hneeds _ ih => exact .link ((untouched_append hpasses).1 huntouched) hneeds ih

end

/-- The graph of the planned steps, with the pass-through steps and the precedences found for
them. -/
def graphOf (st : Staging) (planned : List Step) : StepGraph :=
  ⟨st.allSteps planned ++ (st.web planned).passes, (st.web planned).precedences⟩

/-- The web of all steps makes pass-through steps only. -/
theorem kind_of_mem_passes {step : Step} (hstep : step ∈ (st.web planned).passes) :
    step.key.kind = .passThrough :=
  ((extends_web planned).passes step hstep).resolve_left List.not_mem_nil

/-- A step of the graph that is no pass-through step was planned. -/
theorem mem_allSteps_of_mem_keys {key : StepKey} (hkey : key ∈ (st.graphOf planned).keys)
    (hkind : key.kind = .create ∨ key.kind = .alter) :
    key ∈ (st.allSteps planned).map (·.key) := by
  rw [graphOf, StepGraph.keys, List.map_append, List.mem_append] at hkey
  refine hkey.resolve_right fun hpass => ?_
  obtain ⟨step, hstep, rfl⟩ := List.mem_map.1 hpass
  simp [kind_of_mem_passes hstep] at hkind

/-- Among the pass-through steps that are known, latest first, that of one object stands behind that
of another one if the one was looked at before the other, and both have one. -/
theorem Web.Searched.sublist_known_iff {steps : List Step} {web : Web}
    (hweb : web.Searched st steps []) {dependent need : ObjectId} :
    [⟨.passThrough, dependent⟩, ⟨.passThrough, need⟩].Sublist (web.known.filterMap (·.2)) ↔
      web.Behind dependent need ∧ (dependent, some ⟨.passThrough, dependent⟩) ∈ web.known ∧
        (need, some ⟨.passThrough, need⟩) ∈ web.known := by
  have hmem : ∀ {id : ObjectId} {known : List (ObjectId × Option StepKey)}, known ⊆ web.known →
      ⟨.passThrough, id⟩ ∈ known.filterMap (·.2) → (id, some ⟨.passThrough, id⟩) ∈ known :=
    fun {id known} hsub hin => by
      obtain ⟨⟨other, _⟩, hentry, rfl⟩ := List.mem_filterMap.1 hin
      obtain rfl : id = other := congrArg StepKey.id (hweb.key_eq (hsub hentry))
      exact hentry
  constructor
  · intro hsublist
    obtain ⟨front, back, happend, hfront, hback⟩ := List.cons_sublist_iff.1 hsublist
    obtain ⟨newer, older, heq, rfl, rfl⟩ := List.filterMap_eq_append_iff.1 happend
    have hdependent := hmem (heq ▸ List.subset_append_left _ _) hfront
    have hneed := hmem (heq ▸ List.subset_append_right _ _) (List.singleton_sublist.1 hback)
    obtain ⟨before, after, rfl⟩ := List.append_of_mem hdependent
    refine ⟨⟨before, _, after ++ older, by rw [heq, List.append_assoc, List.cons_append], ?_⟩,
      heq ▸ List.mem_append_left _ hdependent, heq ▸ List.mem_append_right _ hneed⟩
    exact List.mem_map_of_mem (List.mem_append_right _ hneed)
  · rintro ⟨⟨newer, step, older, heq, hin⟩, hdependent, hneed⟩
    obtain ⟨⟨need, found⟩, holder, rfl⟩ := List.mem_map.1 hin
    obtain rfl : some ⟨.passThrough, dependent⟩ = step :=
      hweb.eq_of_mem hdependent (heq ▸ List.mem_append_right _ List.mem_cons_self)
    obtain rfl : some ⟨.passThrough, need⟩ = found := hweb.eq_of_mem hneed
      (heq ▸ List.mem_append_right _ (List.mem_cons_of_mem _ holder))
    rw [heq, List.filterMap_append]
    refine List.Sublist.trans ?_ (List.sublist_append_right _ _)
    exact .cons_cons _ (List.singleton_sublist.2 (List.mem_filterMap.2 ⟨_, holder, rfl⟩))

/-- The pass-through step of one object stands before that of another one if the one was looked at
before the other, and both have one. -/
theorem sublist_keys_iff (hplanned : st.plannedSteps = .ok planned)
    (hsevered : st.breaks.severed = []) {dependent need : ObjectId} :
    [⟨.passThrough, need⟩, ⟨.passThrough, dependent⟩].Sublist (st.graphOf planned).keys ↔
      (st.web planned).Behind dependent need ∧
        (dependent, some ⟨.passThrough, dependent⟩) ∈ (st.web planned).known ∧
        (need, some ⟨.passThrough, need⟩) ∈ (st.web planned).known := by
  have hweb := searched_web hplanned hsevered
  have hkeys : (st.graphOf planned).keys =
      (st.allSteps planned).map (·.key) ++ ((st.web planned).known.filterMap (·.2)).reverse := by
    rw [graphOf, StepGraph.keys, List.map_append, hweb.passes, List.filterMap_reverse]
  rw [← hweb.sublist_known_iff, ← List.reverse_sublist, hkeys]
  simp only [List.reverse_append, List.reverse_reverse, List.reverse_cons, List.reverse_nil,
    List.nil_append, List.singleton_append]
  refine ⟨fun hsublist => ?_, fun hsublist => hsublist.trans (List.sublist_append_left _ _)⟩
  -- The steps that are no pass-through steps do not count.
  have hnone : ((st.allSteps planned).map (·.key)).reverse.filter
      (fun key => key.kind = .passThrough) = [] :=
    List.filter_eq_nil_iff.2 fun key hkey => by
      simpa using kind_ne_passThrough hplanned (List.mem_reverse.1 hkey)
  have hpasses := hsublist.filter fun key => key.kind = .passThrough
  rw [List.filter_append, hnone, List.append_nil] at hpasses
  exact hpasses.trans List.filter_sublist

/-! ## The order that is passed on -/

/-- A step `d` that creates or alters needs an untouched object, from which a chain of untouched
objects leads to the object of a step `x` that creates or alters. -/
structure Passage (st : Staging) (graph : StepGraph) (d x : StepKey) (first : ObjectId)
    (rest : List ObjectId) : Prop where
  later : d ∈ graph.keys
  wants : st.Wants d first
  chain : st.Chain graph.steps x.id (first :: rest)
  earlier : x ∈ graph.keys
  kind : x.kind = .create ∨ x.kind = .alter

/-- No step comes to an object of a chain but through the first one. -/
def EnteredAt (st : Staging) (graph : StepGraph) (chain : List ObjectId) (first : ObjectId) :
    Prop :=
  ∀ key ∈ graph.keys, ∀ need, st.Wants key need →
    ∀ id ∈ chain, ReflTransGen (st.Leans graph.steps) need id → need = first

section
variable {d x : StepKey} {first : ObjectId} {rest : List ObjectId}
variable (hplanned : st.plannedSteps = .ok planned) (hplan : st.plan.Distinct)
variable (hbreaks : st.breaks = {}) (h : st.Passage (st.graphOf planned) d x first rest)
include hplanned hplan hbreaks h

omit hplanned hplan hbreaks in
/-- The chain of a passage is one between the planned steps. -/
theorem Passage.chain_allSteps : st.Chain (st.allSteps planned) x.id (first :: rest) :=
  chain_of_append (fun _ => kind_of_mem_passes) h.chain

/-- The step at the end of a passage brings its object to its new form. -/
theorem Passage.installer : st.installer? (st.allSteps planned) x.id = some (x, .hard) ∧
    x.kind ≠ .passThrough := by
  have hx := mem_allSteps_of_mem_keys h.earlier h.kind
  exact ⟨installer?_of_own hplanned hplan (by rw [hbreaks]) hx h.kind,
    kind_ne_passThrough hplanned hx⟩

omit hplan in
/-- The first object of a passage is known, and the step runs after its pass-through step. -/
theorem Passage.known_first : first ∈ (st.web planned).known.map (·.1) ∧
    ((first, some ⟨.passThrough, first⟩) ∈ (st.web planned).known →
      (st.graphOf planned).Before ⟨.passThrough, first⟩ d) := by
  obtain ⟨step, hstep, rfl⟩ :=
    List.mem_map.1 (mem_allSteps_of_mem_keys h.later h.wants.kind)
  obtain ⟨constraint, hbrings⟩ := (wants_iff hplanned hstep).1 h.wants
  obtain ⟨hfirst, hrun⟩ := web_of_brings hplanned (by rw [hbreaks]) hstep hbrings
  have huntouched := h.chain_allSteps.untouched first List.mem_cons_self
  refine ⟨hfirst huntouched, fun hpass => ?_⟩
  refine hrun _ (.inr ⟨(untouched_iff.1 huntouched).2, hpass⟩) fun heq => ?_
  exact kind_ne_passThrough hplanned (List.mem_map_of_mem hstep) (by rw [← heq])

/-- The order leads along a passage whose objects were looked at one after the other, and they all
have pass-through steps. -/
theorem Passage.leadsBack_of_behind (hbehind : (first :: rest).IsChain (st.web planned).Behind) :
    (∀ id ∈ first :: rest, (id, some ⟨.passThrough, id⟩) ∈ (st.web planned).known) ∧
      (st.graphOf planned).LeadsBack
        (d :: (first :: rest).map (StepKey.mk .passThrough) ++ [x]) := by
  have hsevered : st.breaks.severed = [] := by rw [hbreaks]
  have hweb := searched_web hplanned hsevered
  have hchain := h.chain_allSteps
  obtain ⟨hgoal, hx⟩ := h.installer hplanned hplan hbreaks
  obtain ⟨hfirst, hlast⟩ := h.known_first hplanned hbreaks
  obtain ⟨hpass, hcarried⟩ :=
    hchain.passes hweb hsevered hgoal hx (hchain.known hweb hfirst) hbehind
  exact ⟨hpass, .cons_cons (hlast (hpass first List.mem_cons_self)) hcarried⟩

/-- The order leads along a passage exactly if the pass-through steps stand in this order. -/
theorem Passage.leadsBack_iff :
    (st.graphOf planned).LeadsBack (d :: (first :: rest).map (StepKey.mk .passThrough) ++ [x]) ↔
      (first :: rest).IsChain fun dependent need =>
        [⟨.passThrough, need⟩, ⟨.passThrough, dependent⟩].Sublist (st.graphOf planned).keys := by
  have hsevered : st.breaks.severed = [] := by rw [hbreaks]
  constructor
  · intro hleads
    have hpassed : ((first :: rest).map (StepKey.mk .passThrough) ++ [x]).IsChain
        fun later earlier => (st.web planned).Before earlier later :=
      (List.isChain_cons_cons.1 hleads).2
    have hbehind : (first :: rest).IsChain (st.web planned).Behind :=
      ((List.isChain_map _).1 hpassed.left_of_append).imp fun _ _ hbefore =>
        (searched_web hplanned hsevered).behind_of_before
          (fun _ => kind_ne_passThrough hplanned) hbefore
    have hpass := (h.leadsBack_of_behind hplanned hplan hbreaks hbehind).1
    exact hbehind.imp_of_mem_imp fun dependent need hdependent hneed hlink =>
      (sublist_keys_iff hplanned hsevered).2 ⟨hlink, hpass dependent hdependent, hpass need hneed⟩
  · intro hordered
    refine (h.leadsBack_of_behind hplanned hplan hbreaks (hordered.imp fun _ _ hsublist => ?_)).2
    exact ((sublist_keys_iff hplanned hsevered).1 hsublist).1

/-- The order leads along a passage outside cycles. -/
theorem Passage.leadsBack_of_not_leans
    (hback : (first :: rest).IsChain fun dependent need =>
      ¬ ReflTransGen (st.Leans (st.graphOf planned).steps) need dependent) :
    (st.graphOf planned).LeadsBack
      (d :: (first :: rest).map (StepKey.mk .passThrough) ++ [x]) := by
  have hweb := searched_web hplanned (by rw [hbreaks])
  have hchain := h.chain_allSteps
  have hleans : st.Leans (st.graphOf planned).steps = st.Leans (st.allSteps planned) :=
    leans_append fun _ => kind_of_mem_passes
  rw [hleans] at hback
  exact (h.leadsBack_of_behind hplanned hplan hbreaks (hchain.behind hweb
    (hchain.known hweb (h.known_first hplanned hbreaks).1) hback)).2

/-- The order goes through a passage that no step enters but at its first object. -/
theorem Passage.transGen_of_enteredAt
    (henters : st.EnteredAt (st.graphOf planned) (first :: rest) first) :
    TransGen (st.graphOf planned).Before x d := by
  obtain ⟨hgoal, hx⟩ := h.installer hplanned hplan hbreaks
  obtain ⟨hfirst, hlast⟩ := h.known_first hplanned hbreaks
  have hleans : st.Leans (st.graphOf planned).steps = st.Leans (st.allSteps planned) :=
    leans_append fun _ => kind_of_mem_passes
  have hbrought : ∀ step ∈ st.allSteps planned, ∀ constraint need, st.Brings step constraint need →
      ∀ id ∈ first :: rest, ReflTransGen (st.Leans (st.allSteps planned)) need id →
        need = first := fun step hstep constraint need hbrings => by
    rw [← hleans]
    exact henters step.key (List.mem_map_of_mem (List.mem_append_left _ hstep)) need
      ((wants_iff hplanned hstep).2 ⟨constraint, hbrings⟩)
  obtain ⟨hpass, horder⟩ := (entered_of_moves hplanned (by rw [hbreaks]) h.chain_allSteps hgoal
    hx hbrought (moves_web hplanned)).resolve_left fun hunknown =>
      hunknown first List.mem_cons_self hfirst
  exact TransGen.tail' horder (hlast hpass)

end

/-- **Untouched objects pass the order on.** The search for pass-through steps ends: with more room
it finds the same. In the graph of a plan with nothing given up, the order of two steps that a chain
of untouched objects joins is carried along this chain exactly if the pass-through step of each of
its objects stands behind that of the next one. Then the one step runs after the other. So it does
if no two neighbours of the chain are on a cycle of untouched objects, and, with whatever cycles, if
no step comes to the chain but through its first object. -/
theorem order_passed_on (hplan : st.plan.Distinct) (hbreaks : st.breaks = {}) :
    (∀ steps web id depth, st.plan.new.size < depth →
      st.passThrough steps depth [] web id =
        st.passThrough steps (st.plan.new.size + 1) [] web id) ∧
    ∀ graph, st.stepGraph = .ok graph → ∀ d x first rest, st.Passage graph d x first rest →
      (graph.LeadsBack (d :: (first :: rest).map (StepKey.mk .passThrough) ++ [x]) ↔
        (first :: rest).IsChain fun dependent need =>
          [⟨.passThrough, need⟩, ⟨.passThrough, dependent⟩].Sublist graph.keys) ∧
      (graph.LeadsBack (d :: (first :: rest).map (StepKey.mk .passThrough) ++ [x]) →
        TransGen graph.Before x d) ∧
      ((first :: rest).IsChain (fun dependent need =>
        ¬ ReflTransGen (st.Leans graph.steps) need dependent) → TransGen graph.Before x d) ∧
      (st.EnteredAt graph (first :: rest) first → TransGen graph.Before x d) := by
  refine ⟨fun steps web id depth hdepth => passThrough_eq_of_lt Way.nil hdepth (by simp), ?_⟩
  intro graph hgraph d x first rest h
  obtain ⟨planned, hplanned, rfl⟩ := stepGraph_iff.1 hgraph
  exact ⟨h.leadsBack_iff hplanned hplan hbreaks, StepGraph.transGen_of_leadsBack,
    fun hback => StepGraph.transGen_of_leadsBack
      (h.leadsBack_of_not_leans hplanned hplan hbreaks hback),
    h.transGen_of_enteredAt hplanned hplan hbreaks⟩

namespace MutualFunctions

/-- A function of the schema `a`. -/
def function (name : String) : ObjectId := .function "a" name []

/-- A view of the schema `a`. -/
def view (name : String) : ObjectId := ⟨.view, ["a", name]⟩

/-- The statement of a function that calls others. -/
def routine (name body : String) (calls : List String) : Statement where
  id := function name
  parent := some ⟨.schema, ["a"]⟩
  definition := .function { returns := some "integer", language := some "sql", body }
  dependencies := calls.map function

/-- The functions `f` and `g` call each other, and `f` calls `h`; each of the views calls one of
them. -/
def snapshot (views : List (String × String)) (body : String) : Snapshot where
  dialect := .postgres
  statements :=
    [{ id := .database, parent := none, definition := .database, children := [⟨.schema, ["a"]⟩] },
     { id := ⟨.schema, ["a"]⟩, parent := some .database, definition := .schema {},
       children := views.map (view ·.1) ++ ["f", "g", "h"].map function }] ++
    views.map (fun (name, called) =>
      { id := view name, parent := some ⟨.schema, ["a"]⟩,
        definition := .view { query := "SELECT a." ++ called ++ "()" },
        dependencies := [function called] }) ++
    [routine "f" "SELECT a.g() + a.h()" ["g", "h"], routine "g" "SELECT a.f()" ["f"],
     routine "h" body []]
  fingerprints := []

/-- The view `w` calls `g`; it may stand beside a view `v` that calls `f`. -/
def views (beside : Bool) : List (String × String) :=
  (if beside then [("v", "f")] else []) ++ [("w", "g")]

/-- The views are new, and `h` gets another body. -/
def plan (beside : Bool) : Except MigrationError Plan :=
  Plan.ofElements (snapshot [] "SELECT 1") (snapshot (views beside) "SELECT 2")
    ((views beside).map (fun (name, _) => ⟨view name, .onlyNew⟩) ++ [⟨function "h", .both⟩])

/-- The graph has a step for `w` and one for `h`, but none that brings `f` or `g` to a new form. -/
def leavesOut (graph : StepGraph) : Bool :=
  graph.keys.contains ⟨.create, view "w"⟩ && graph.keys.contains ⟨.alter, function "h"⟩ &&
    ["f", "g"].all fun name => !graph.keys.contains ⟨.create, function name⟩ &&
      !graph.keys.contains ⟨.alter, function name⟩

/-- The graph of the plan, with what is computed of it: the view `w` needs `g`, which is untouched
and needs `f`, which is untouched and needs `h`. -/
theorem exists_graph (beside : Bool) {p : StepGraph → Bool}
    (h : (plan beside).toOption.any (fun start : Plan =>
      (stepGraph { plan := start.expand [] }).toOption.any fun graph =>
        leavesOut graph && p graph) = true) :
    ∃ (st : Staging) (graph : StepGraph), (∃ start, plan beside = .ok start ∧
        st = { plan := start.expand [] }) ∧ st.plan.Distinct ∧ st.stepGraph = .ok graph ∧
      st.Passage graph ⟨.create, view "w"⟩ ⟨.alter, function "h"⟩ (function "g") [function "f"] ∧
      p graph = true := by
  obtain ⟨start, hstart, htest⟩ := exists_ok_of_test h
  obtain ⟨graph, hgraph, htest⟩ := exists_ok_of_test htest
  simp only [leavesOut, Bool.and_eq_true, List.contains_iff_mem, List.all_eq_true,
    Bool.not_eq_true', ← Bool.not_eq_true] at htest
  obtain ⟨⟨⟨hw, hh⟩, hout⟩, hp⟩ := htest
  obtain ⟨hinitial, -, hsnapshot⟩ := Plan.initial_of_ofElements (by decide +kernel)
    (by cases beside <;> decide +kernel) hstart
  obtain ⟨hedited, -⟩ := hinitial.expand []
  have hnew := (hedited.advances hinitial.new).new.trans hsnapshot
  have hheld : ∀ name ∈ ["f", "g"],
      (snapshot (views beside) "SELECT 2").contains (function name) = true := by
    cases beside <;> decide +kernel
  have huntouched : ∀ name ∈ ["f", "g"],
      Untouched { plan := start.expand [] } graph.steps (function name) := fun name hname => by
    refine ⟨?_, ?_⟩
    · change (start.expand []).new.contains (function name) = true
      rw [hnew]
      exact hheld name hname
    · rintro key ⟨hkey, rfl | rfl | ⟨hsub, -⟩⟩
      · exact (hout name hname).1 hkey
      · exact (hout name hname).2 hkey
      · cases hsub
  have hneeds : ∀ {id need : ObjectId}, (snapshot (views beside) "SELECT 2").Needs [] id need →
      (start.expand []).new.Needs [] id need := fun hneed => hnew ▸ hneed
  refine ⟨{ plan := start.expand [] }, graph, ⟨start, hstart, rfl⟩,
    hedited.distinct hinitial.distinct, hgraph, ⟨hw, ⟨.inl rfl, .inl (hneeds ?_), by decide, ?_⟩,
      .link (huntouched "g" (by simp)) (hneeds ?_) (.last (huntouched "f" (by simp)) (hneeds ?_)),
      hh, .inr rfl⟩, hp⟩
  · cases beside <;> exact .inl ⟨_, rfl, List.mem_cons_self⟩
  · change (start.expand []).new.isDescendant (function "g") (view "w") = false
    rw [hnew]
    cases beside <;> decide +kernel
  · cases beside <;> exact .inl ⟨_, rfl, List.mem_cons_self⟩
  · cases beside <;> exact .inl ⟨_, rfl, by decide⟩

/-- Where `w` stands alone it is created after `h` is altered: `f` is looked at before `g`. -/
theorem view_after_function :
    ∃ st graph, (∃ start, plan false = .ok start ∧ st = { plan := start.expand [] }) ∧
      stepGraph st = .ok graph ∧
      TransGen graph.Before ⟨.alter, function "h"⟩ ⟨.create, view "w"⟩ := by
  obtain ⟨st, graph, hst, hdistinct, hgraph, hpassage, hp⟩ := exists_graph false
    (p := fun graph => decide
      ([⟨.passThrough, function "f"⟩, ⟨.passThrough, function "g"⟩].Sublist graph.keys))
    (by decide +kernel)
  have hbreaks : st.breaks = {} := by
    obtain ⟨_, -, rfl⟩ := hst
    rfl
  obtain ⟨hleads, horder, -⟩ :=
    (order_passed_on hdistinct hbreaks).2 graph hgraph _ _ _ _ hpassage
  exact ⟨st, graph, hst, hgraph, horder (hleads.2 (List.isChain_pair.2 (of_decide_eq_true hp)))⟩

/-- Beside `v` the view `w` may be created first: `g` is looked at while `f` is on the way, so
nothing is found behind it, and this is remembered when `w` asks for it. -/
theorem view_before_function :
    ∃ st graph, (∃ start, plan true = .ok start ∧ st = { plan := start.expand [] }) ∧
      stepGraph st = .ok graph ∧
      Passage st graph ⟨.create, view "w"⟩ ⟨.alter, function "h"⟩ (function "g") [function "f"] ∧
      ¬ TransGen graph.Before ⟨.alter, function "h"⟩ ⟨.create, view "w"⟩ := by
  obtain ⟨st, graph, hst, -, hgraph, hpassage, hp⟩ := exists_graph true
    (p := fun graph => graph.precedences.all fun p => decide (p.later ≠ ⟨.create, view "w"⟩))
    (by decide +kernel)
  refine ⟨st, graph, hst, hgraph, hpassage, fun horder => ?_⟩
  obtain ⟨_, -, reason, hlast⟩ := TransGen.tail'_iff.1 horder
  exact of_decide_eq_true (List.all_eq_true.1 hp _ hlast) rfl

end MutualFunctions

end Staging

end SchemaMigration
