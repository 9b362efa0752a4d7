import SchemaMigration.Proofs.Plan.Web
import SchemaMigration.Proofs.Snapshot.Tree

/-!
# The search for pass-through steps

From an object that no step brings to its new form (`Staging.Untouched`) the search for a
pass-through step goes on along needs, and remembers for each object what it found. It ends on every
graph of needs (`Staging.passThrough_eq_of_lt`). What it remembers (`Staging.Web.Searched`) is right
about the needs that were looked at before the object itself; a need that was not leads back to the
object (`Staging.Explored.looked`), and nothing is passed on from it. Everything that one search
finds is joined to the object where it began (`Staging.Web.Found.joined`).
-/

namespace SchemaMigration

namespace Staging

open Relation

variable {st : Staging} {steps : List Step}

/-! ## Untouched objects -/

/-- A step brings an object to its new form: it creates or alters the object, or it creates the
table that a column or a constraint comes with. -/
def Installs (st : Staging) (steps : List Step) (key : StepKey) (id : ObjectId) : Prop :=
  key ∈ steps.map (·.key) ∧ (key = ⟨.create, id⟩ ∨ key = ⟨.alter, id⟩ ∨
    id.kind.isSubElement = true ∧ st.travels id = true ∧
      key = ⟨.create, st.plan.new.topLevel id⟩)

/-- An object of the new snapshot that no step brings to its new form. -/
structure Untouched (st : Staging) (steps : List Step) (id : ObjectId) : Prop where
  held : st.plan.new.contains id = true
  idle : ∀ key, ¬ st.Installs steps key id

/-- One untouched object needs another one. -/
structure Leans (st : Staging) (steps : List Step) (dependent need : ObjectId) : Prop where
  untouched : st.Untouched steps dependent ∧ st.Untouched steps need
  needs : st.plan.new.Needs st.extra.new dependent need

/-- Without an installer no step brings an object to its new form. -/
theorem installer?_eq_none {id : ObjectId} :
    st.installer? steps id = none ↔ ∀ key, ¬ st.Installs steps key id := by
  constructor
  · intro hnone key hinstalls
    obtain ⟨hcreate, halter, htable⟩ : Steps.has steps ⟨.create, id⟩ = false ∧
        Steps.has steps ⟨.alter, id⟩ = false ∧
          (id.kind.isSubElement = true → st.travels id = true →
            Steps.has steps ⟨.create, st.plan.new.topLevel id⟩ = false) := by
      simpa [installer?, ite_eq_iff] using hnone
    obtain ⟨hkey, rfl | rfl | ⟨hsub, htravels, rfl⟩⟩ := hinstalls <;>
      rw [← Steps.has_iff] at hkey
    · simp [hcreate] at hkey
    · simp [halter] at hkey
    · simp [htable hsub htravels] at hkey
  · intro hidle
    cases hinstaller : st.installer? steps id with
    | none => rfl
    | some found =>
      obtain ⟨key, reason⟩ := found
      refine absurd ?_ (hidle key)
      rcases installer?_eq_some.1 hinstaller with ⟨rfl, -, hkey⟩ | ⟨rfl, -, -, hkey⟩ |
        ⟨rfl, -, -, -, hsub, htravels, hkey⟩
      · exact ⟨hkey, .inl rfl⟩
      · exact ⟨hkey, .inr (.inl rfl)⟩
      · exact ⟨hkey, .inr (.inr ⟨hsub, htravels, rfl⟩)⟩

/-- An object without an installer is untouched if the new snapshot has it. -/
theorem untouched_iff {id : ObjectId} : st.Untouched steps id ↔
    st.plan.new.contains id = true ∧ st.installer? steps id = none := by
  rw [installer?_eq_none]
  exact ⟨fun h => ⟨h.held, h.idle⟩, fun h => ⟨h.1, h.2⟩⟩

/-- What an object of the new snapshot needs is what the search goes through. -/
theorem mem_newNeeds_iff {s : Statement} {id need : ObjectId} (hs : st.plan.new.get? id = some s) :
    need ∈ st.newNeeds s ↔ st.plan.new.Needs st.extra.new id need :=
  ⟨Snapshot.needs_of_mem hs, Snapshot.mem_of_needs hs⟩

/-! ## The end of the search -/

/-- The objects on the way are different ones of the new snapshot. -/
structure Way (st : Staging) (path : List ObjectId) : Prop where
  nodup : path.Nodup
  held : ∀ id ∈ path, st.plan.new.contains id = true

/-- Nothing is on the way at first. -/
theorem Way.nil : st.Way [] := ⟨List.nodup_nil, by simp⟩

/-- The search goes on to an object that is not on the way yet. -/
theorem Way.cons {path : List ObjectId} {id : ObjectId} {s : Statement} (h : st.Way path)
    (hid : id ∉ path) (hs : st.plan.new.get? id = some s) : st.Way (id :: path) :=
  ⟨List.nodup_cons.2 ⟨hid, h.nodup⟩, List.forall_mem_cons.2
    ⟨Snapshot.contains_iff.2 ⟨s, hs⟩, h.held⟩⟩

/-- No way is longer than the snapshot. -/
theorem Way.length_le {path : List ObjectId} (h : st.Way path) :
    path.length ≤ st.plan.new.size := by
  have hsub : path ⊆ st.plan.new.statements.map (·.id) := fun id hid => by
    obtain ⟨s, hs, rfl⟩ := Snapshot.contains_iff_exists_mem.1 (h.held id hid)
    exact List.mem_map_of_mem hs
  exact (h.nodup.subperm hsub).length_le.trans_eq (List.length_map _)

/-- The search never gets to its bound: with more room it finds the same. -/
theorem passThrough_eq_of_lt {depth depth' : Nat} {path : List ObjectId} {web : Web} {id : ObjectId}
    (hpath : st.Way path) (hdepth : st.plan.new.size < depth + path.length)
    (hdepth' : st.plan.new.size < depth' + path.length) :
    st.passThrough steps depth path web id = st.passThrough steps depth' path web id := by
  have hlen := hpath.length_le
  -- The way grows as the room shrinks, and no way is longer than the snapshot.
  induction depth generalizing depth' path web id with
  | zero => omega
  | succ depth ih =>
    cases depth' with
    | zero => omega
    | succ depth' =>
      unfold passThrough
      split
      · rfl
      · rfl
      · next statement _ hstatement =>
        split
        · rfl
        · next hid =>
          have hway := hpath.cons (by simpa using hid) hstatement
          have hnext : ∀ web need, st.passThrough steps depth (id :: path) web need =
              st.passThrough steps depth' (id :: path) web need := fun web need => by
            refine ih hway ?_ ?_ hway.length_le <;> rw [List.length_cons] <;> omega
          simp only [hnext]

/-! ## What is known of an object -/

/-- What an object needs leads on to a step: to its installer, or to the pass-through step that it
is known to have. -/
def LeadsOn (st : Staging) (steps : List Step) (known : List (ObjectId × Option StepKey))
    (need : ObjectId) (key : StepKey) : Prop :=
  (∃ reason, st.installer? steps need = some (key, reason)) ∨
    st.installer? steps need = none ∧ (need, some key) ∈ known

/-- More knowledge leads on to the same steps. -/
theorem LeadsOn.mono {known known' : List (ObjectId × Option StepKey)} {need : ObjectId}
    {key : StepKey} (hsub : known ⊆ known') (h : st.LeadsOn steps known need key) :
    st.LeadsOn steps known' need key :=
  h.imp_right fun hpass => ⟨hpass.1, hsub hpass.2⟩

/-- What was found about an object when others had been looked at before it. -/
structure Explored (st : Staging) (steps : List Step) (precedences : List Precedence)
    (older : List (ObjectId × Option StepKey)) (id : ObjectId) (step : Option StepKey) : Prop where
  untouched : st.Untouched steps id
  key : ∀ key, step = some key → key = ⟨.passThrough, id⟩
  /-- Whatever its needs lead on to comes before its pass-through step. -/
  follows : ∀ need key, st.plan.new.Needs st.extra.new id need → st.LeadsOn steps older need key →
    step = some ⟨.passThrough, id⟩ ∧ st.precede key ⟨.passThrough, id⟩ .soft ⊆ precedences
  /-- A need that was not looked at before was on the way to the object. -/
  looked : ∀ need, st.Leans steps id need →
    need ∈ older.map (·.1) ∨ ReflTransGen (st.Leans steps) need id

/-- What was found stays right with more precedences. -/
theorem Explored.mono {precedences precedences' : List Precedence}
    {older : List (ObjectId × Option StepKey)} {id : ObjectId} {step : Option StepKey}
    (hsub : precedences ⊆ precedences') (h : st.Explored steps precedences older id step) :
    st.Explored steps precedences' older id step :=
  ⟨h.untouched, h.key, fun need key hneed hleads =>
    (h.follows need key hneed hleads).imp_right fun hin => List.Subset.trans hin hsub, h.looked⟩

/-- One step comes before another one by a precedence of a web. -/
def Web.Before (web : Web) (a b : StepKey) : Prop := ∃ reason, ⟨a, b, reason⟩ ∈ web.precedences

/-- What holds of a web during a search, with the objects that are on the way. -/
structure Web.Searched (st : Staging) (steps : List Step) (path : List ObjectId) (web : Web) :
    Prop where
  nodup : (web.known.map (·.1)).Nodup
  clear : ∀ id ∈ path, id ∉ web.known.map (·.1)
  passes : web.passes.map (·.key) = web.known.reverse.filterMap (·.2)
  explored : ∀ newer id step older, web.known = newer ++ (id, step) :: older →
    st.Explored steps web.precedences older id step
  closed : ∀ id ∈ web.known.map (·.1), ∀ need, st.Leans steps id need →
    need ∈ web.known.map (·.1) ∨ need ∈ path
  /-- Nothing comes before a pass-through step but what its needs lead on to. -/
  origin : ∀ p ∈ web.precedences, p.later.kind = .passThrough →
    ∃ newer id older, web.known = newer ++ (id, some p.later) :: older ∧
      ∃ need, st.plan.new.Needs st.extra.new id need ∧ st.LeadsOn steps older need p.earlier

/-- A web that a search started from: nothing is forgotten. -/
structure Web.Grows (web next : Web) : Prop where
  known : web.known <:+ next.known
  precedences : web.precedences ⊆ next.precedences

/-- A web that stayed as it is. -/
theorem Web.Grows.refl (web : Web) : web.Grows web := ⟨List.suffix_refl _, List.Subset.refl _⟩

/-- Searches one after the other. -/
theorem Web.Grows.trans {a b c : Web} (hab : a.Grows b) (hbc : b.Grows c) : a.Grows c :=
  ⟨hab.known.trans hbc.known, List.Subset.trans hab.precedences hbc.precedences⟩

/-- Objects that are known stay known. -/
theorem Web.Grows.ids {web next : Web} (h : web.Grows next) :
    web.known.map (·.1) ⊆ next.known.map (·.1) :=
  List.map_subset _ h.known.subset

/-- Chains of precedences stay. -/
theorem Web.Grows.chain {web next : Web} (h : web.Grows next) {a b : StepKey}
    (hab : ReflTransGen web.Before a b) : ReflTransGen next.Before a b :=
  ReflTransGen.mono (fun _ _ ⟨reason, hp⟩ => ⟨reason, h.precedences hp⟩) _ _ hab

section
variable {path : List ObjectId} {web : Web} (h : web.Searched st steps path)
include h

/-- What is known of an object is known once. -/
theorem Web.Searched.eq_of_mem {id : ObjectId} {a b : Option StepKey} (ha : (id, a) ∈ web.known)
    (hb : (id, b) ∈ web.known) : a = b :=
  congrArg Prod.snd (List.inj_on_of_nodup_map h.nodup ha hb rfl)

/-- The searches so far were about untouched objects. -/
theorem Web.Searched.untouched {id : ObjectId} (hid : id ∈ web.known.map (·.1)) :
    st.Untouched steps id := by
  obtain ⟨⟨_, step⟩, hmem, rfl⟩ := List.mem_map.1 hid
  obtain ⟨newer, older, heq⟩ := List.append_of_mem hmem
  exact (h.explored newer _ step older heq).untouched

/-- An object that is known keeps the step that it was known to have. -/
theorem Web.Searched.mem_of_grows {before : Web} (hgrows : before.Grows web) {id : ObjectId}
    {step : Option StepKey} (hid : id ∈ before.known.map (·.1)) (hstep : (id, step) ∈ web.known) :
    (id, step) ∈ before.known := by
  obtain ⟨⟨_, step'⟩, hmem, rfl⟩ := List.mem_map.1 hid
  rwa [h.eq_of_mem hstep (hgrows.known.subset hmem)]

end

/-- The search goes on from an object that is not known. -/
theorem Web.Searched.enter {path : List ObjectId} {web : Web} (h : web.Searched st steps path)
    {id : ObjectId} (hunknown : id ∉ web.known.map (·.1)) :
    web.Searched st steps (id :: path) where
  nodup := h.nodup
  clear := List.forall_mem_cons.2 ⟨hunknown, h.clear⟩
  passes := h.passes
  explored := h.explored
  closed other hother need hneed :=
    (h.closed other hother need hneed).imp_right (List.mem_cons_of_mem _)
  origin := h.origin

/-! ## One search -/

/-- What a search for the step that a need leads on to has found. -/
structure Web.Found (st : Staging) (steps : List Step) (path : List ObjectId) (web : Web)
    (need : ObjectId) (next : Web) (found : Option StepKey) : Prop where
  searched : next.Searched st steps path
  grows : web.Grows next
  settled : st.Untouched steps need → need ∈ next.known.map (·.1) ∨ need ∈ path
  leadsOn : ∀ key, found = some key ↔ st.LeadsOn steps next.known need key
  /-- Only objects that the need leans on were looked at. -/
  reached : ∀ other ∈ next.known.map (·.1), other ∈ web.known.map (·.1) ∨
    st.Untouched steps need ∧ ReflTransGen (st.Leans steps) need other
  /-- The pass-through steps that were made all come before the step that was found. -/
  joined : ∀ other key, (other, some key) ∈ next.known → other ∈ web.known.map (·.1) ∨
    ∃ source, found = some source ∧ ReflTransGen next.Before key source

/-- A search that found what there was before. -/
theorem Web.Searched.found {path : List ObjectId} {web : Web} (h : web.Searched st steps path)
    {need : ObjectId} {found : Option StepKey}
    (hsettled : st.Untouched steps need → need ∈ web.known.map (·.1) ∨ need ∈ path)
    (hleads : ∀ key, found = some key ↔ st.LeadsOn steps web.known need key) :
    web.Found st steps path need web found where
  searched := h
  grows := .refl web
  settled := hsettled
  leadsOn := hleads
  reached _ hother := .inl hother
  joined _ _ hother := .inl (List.mem_map_of_mem hother)

/-- What the search has found while it goes through the needs of an object: the web, and the steps
that the needs looked at so far lead on to. -/
structure Web.Gathered (st : Staging) (steps : List Step) (path : List ObjectId) (web : Web)
    (id : ObjectId) (looked : List ObjectId) (next : Web) (sources : List StepKey) : Prop where
  searched : next.Searched st steps (id :: path)
  grows : web.Grows next
  settled : ∀ need ∈ looked, st.Untouched steps need →
    need ∈ next.known.map (·.1) ∨ need ∈ id :: path
  sound : ∀ key ∈ sources, ∃ need ∈ looked, st.LeadsOn steps next.known need key
  complete : ∀ need ∈ looked, ∀ key, st.LeadsOn steps next.known need key → key ∈ sources
  reached : ∀ other ∈ next.known.map (·.1), other ∈ web.known.map (·.1) ∨
    ReflTransGen (st.Leans steps) id other
  joined : ∀ other key, (other, some key) ∈ next.known → other ∈ web.known.map (·.1) ∨
    ∃ source ∈ sources, ReflTransGen next.Before key source

/-- Nothing was gathered at first. -/
theorem Web.Searched.gathered {path : List ObjectId} {web : Web} {id : ObjectId}
    (h : web.Searched st steps (id :: path)) : web.Gathered st steps path id [] web [] where
  searched := h
  grows := .refl web
  settled := by simp
  sound := by simp
  complete := by simp
  reached _ hother := .inl hother
  joined _ _ hother := .inl (List.mem_map_of_mem hother)

/-- One more need is looked at. -/
theorem Web.Gathered.snoc {path : List ObjectId} {web grown next : Web} {id need : ObjectId}
    {looked : List ObjectId} {sources : List StepKey} {found : Option StepKey}
    (h : web.Gathered st steps path id looked grown sources) (hid : st.Untouched steps id)
    (hneed : st.plan.new.Needs st.extra.new id need)
    (hfound : grown.Found st steps (id :: path) need next found) :
    web.Gathered st steps path id (looked ++ [need]) next (sources ++ found.toList) where
  searched := hfound.searched
  grows := h.grows.trans hfound.grows
  settled other hother huntouched := by
    rcases List.mem_append.1 hother with hother | hother
    · exact (h.settled other hother huntouched).imp_left (hfound.grows.ids ·)
    · rw [List.mem_singleton.1 hother] at huntouched ⊢
      exact hfound.settled huntouched
  sound key hkey := by
    rcases List.mem_append.1 hkey with hkey | hkey
    · obtain ⟨other, hother, hleads⟩ := h.sound key hkey
      exact ⟨other, List.mem_append_left _ hother, hleads.mono hfound.grows.known.subset⟩
    · exact ⟨need, by simp, (hfound.leadsOn key).1 (Option.mem_toList.1 hkey)⟩
  complete other hother key hleads := by
    rcases List.mem_append.1 hother with hother | hother
    · refine List.mem_append_left _ (h.complete other hother key ?_)
      -- What this need did not lead on to when it was looked at it does not lead on to later.
      refine hleads.imp_right fun ⟨hnone, hmem⟩ => ⟨hnone, ?_⟩
      have hknown : other ∈ next.known.map (·.1) := List.mem_map_of_mem hmem
      refine hfound.searched.mem_of_grows hfound.grows ?_ hmem
      exact (h.settled other hother (hfound.searched.untouched hknown)).resolve_right fun hpath =>
        hfound.searched.clear other hpath hknown
    · rw [List.mem_singleton.1 hother] at hleads
      exact List.mem_append_right _ (Option.mem_toList.2 ((hfound.leadsOn key).2 hleads))
  reached other hother := by
    rcases hfound.reached other hother with hother | ⟨huntouched, hleans⟩
    · exact h.reached other hother
    · exact .inr (.head ⟨⟨hid, huntouched⟩, hneed⟩ hleans)
  joined other key hother := by
    rcases hfound.joined other key hother with hknown | ⟨source, hsource, hchain⟩
    · have hmem := hfound.searched.mem_of_grows hfound.grows hknown hother
      exact (h.joined other key hmem).imp_right fun ⟨source, hsource, hchain⟩ =>
        ⟨source, List.mem_append_left _ hsource, hfound.grows.chain hchain⟩
    · exact .inr ⟨source, List.mem_append_right _ (Option.mem_toList.2 hsource), hchain⟩

/-- All needs of an object are looked at, one after the other. -/
theorem Web.Gathered.foldl {path : List ObjectId} {web : Web} {id : ObjectId}
    (find : Web → ObjectId → Web × Option StepKey) (hid : st.Untouched steps id)
    (hfind : ∀ {web : Web} (need : ObjectId), web.Searched st steps (id :: path) →
      st.plan.new.Needs st.extra.new id need →
        web.Found st steps (id :: path) need (find web need).1 (find web need).2) :
    ∀ (needs looked : List ObjectId) (grown : Web) (sources : List StepKey),
      (∀ need ∈ needs, st.plan.new.Needs st.extra.new id need) →
      web.Gathered st steps path id looked grown sources →
      let state := needs.foldl (fun state need =>
        ((find state.1 need).1, state.2 ++ (find state.1 need).2.toList)) (grown, sources)
      web.Gathered st steps path id (looked ++ needs) state.1 state.2
  | [], looked, grown, sources, _, h => by simpa using h
  | need :: needs, looked, grown, sources, hneeds, h => by
    have hneed := hneeds need List.mem_cons_self
    have hnext := foldl find hid hfind needs (looked ++ [need]) _ _
      (fun other hother => hneeds other (List.mem_cons_of_mem _ hother))
      (h.snoc hid hneed (hfind need h.searched hneed))
    simpa using hnext

/-- How a web goes on when all needs of an object were looked at: the object is known, and it has a
pass-through step behind the steps that its needs lead on to, if there are any. -/
structure Web.Closes (st : Staging) (grown next : Web) (id : ObjectId) (sources : List StepKey)
    (step : Option StepKey) : Prop where
  found : step = if sources.isEmpty then none else some ⟨.passThrough, id⟩
  known : next.known = (id, step) :: grown.known
  precedences : next.precedences = grown.precedences ++
    sources.flatMap fun source => st.precede source ⟨.passThrough, id⟩ .soft
  passes : next.passes.map (·.key) = grown.passes.map (·.key) ++ step.toList

/-- Nothing is forgotten when an object becomes known. -/
theorem Web.Closes.grows {grown next : Web} {id : ObjectId} {sources : List StepKey}
    {step : Option StepKey} (h : grown.Closes st next id sources step) : grown.Grows next :=
  ⟨h.known ▸ List.suffix_cons _ _, h.precedences ▸ List.subset_append_left _ _⟩

/-- With a step that comes before it an object has a pass-through step. -/
theorem Web.Closes.step_eq {grown next : Web} {id : ObjectId} {sources : List StepKey}
    {step : Option StepKey} (h : grown.Closes st next id sources step) {source : StepKey}
    (hsource : source ∈ sources) : step = some ⟨.passThrough, id⟩ := by
  rw [h.found, if_neg]
  rw [List.isEmpty_iff]
  rintro rfl
  cases hsource

section
variable {path : List ObjectId} {web grown next : Web} {id : ObjectId} {s : Statement}
variable {sources : List StepKey} {step : Option StepKey}
variable (h : web.Gathered st steps path id (st.newNeeds s) grown sources)
variable (hclose : grown.Closes st next id sources step) (hs : st.plan.new.get? id = some s)
variable (hid : st.Untouched steps id) (hpath : id ∉ path)
variable (hway : ∀ other ∈ path, ReflTransGen (st.Leans steps) other id)
include h hclose hs hid

include hway in
/-- What was found about an object is right when all of its needs were looked at. -/
theorem Web.Gathered.explored : st.Explored steps next.precedences grown.known id step := by
  refine ⟨hid, fun key hkey => ?_, fun need key hneed hleads => ?_, fun need hneed => ?_⟩
  · rw [hclose.found] at hkey
    split at hkey <;> cases hkey
    rfl
  · have hkey := h.complete need ((mem_newNeeds_iff hs).2 hneed) key hleads
    refine ⟨hclose.step_eq hkey, fun p hp => ?_⟩
    rw [hclose.precedences]
    exact List.mem_append_right _ (List.mem_flatMap.2 ⟨key, hkey, hp⟩)
  · have hin := h.settled need ((mem_newNeeds_iff hs).2 hneed.needs) hneed.untouched.2
    refine hin.imp_right fun hin => ?_
    rcases List.mem_cons.1 hin with rfl | hin
    · exact .refl
    · exact hway need hin

include hpath hway in
/-- The web stays right when an object becomes known. -/
theorem Web.Gathered.searched_next : next.Searched st steps path := by
  have hunknown : id ∉ grown.known.map (·.1) := h.searched.clear id List.mem_cons_self
  have hids : next.known.map (·.1) = id :: grown.known.map (·.1) := by
    rw [hclose.known, List.map_cons]
  refine ⟨?_, fun other hother => ?_, ?_, fun newer other step' older heq => ?_,
    fun other hother need hneed => ?_, fun p hp hkind => ?_⟩
  · rw [hids]
    exact List.nodup_cons.2 ⟨hunknown, h.searched.nodup⟩
  · rw [hids, List.mem_cons, not_or]
    exact ⟨fun heq => hpath (heq ▸ hother), h.searched.clear other (List.mem_cons_of_mem _ hother)⟩
  · rw [hclose.passes, h.searched.passes, hclose.known, List.reverse_cons, List.filterMap_append]
    cases step <;> rfl
  · rw [hclose.known] at heq
    cases newer with
    | nil =>
      obtain ⟨hhead, rfl⟩ := List.cons.inj heq
      obtain ⟨rfl, rfl⟩ := Prod.mk.inj hhead
      exact h.explored hclose hs hid hway
    | cons first newer =>
      exact (h.searched.explored newer other step' older (List.cons.inj heq).2).mono
        hclose.grows.precedences
  · rw [hids, List.mem_cons] at hother ⊢
    have hin : need ∈ grown.known.map (·.1) ∨ need ∈ id :: path := by
      rcases hother with rfl | hother
      · exact h.settled need ((mem_newNeeds_iff hs).2 hneed.needs) hneed.untouched.2
      · exact h.searched.closed other hother need hneed
    rcases hin with hin | hin
    · exact .inl (.inr hin)
    · exact (List.mem_cons.1 hin).imp_left .inl
  · rw [hclose.precedences] at hp
    rcases List.mem_append.1 hp with hp | hp
    · obtain ⟨newer, other, older, heq, hleads⟩ := h.searched.origin p hp hkind
      exact ⟨(id, step) :: newer, other, older, by rw [hclose.known, heq]; rfl, hleads⟩
    · obtain ⟨source, hsource, hp⟩ := List.mem_flatMap.1 hp
      obtain ⟨rfl, -⟩ := mem_precede_iff.1 hp
      obtain ⟨need, hneed, hleads⟩ := h.sound source hsource
      exact ⟨[], id, grown.known, by rw [hclose.known, hclose.step_eq hsource]; rfl, need,
        (mem_newNeeds_iff hs).1 hneed, hleads⟩

include hpath hway in
/-- The search from an object has found its pass-through step when all of its needs were looked
at. -/
theorem Web.Gathered.found (hsevered : st.breaks.severed = []) :
    web.Found st steps path id next step := by
  have hunknown : id ∉ grown.known.map (·.1) := h.searched.clear id List.mem_cons_self
  have hids : next.known.map (·.1) = id :: grown.known.map (·.1) := by
    rw [hclose.known, List.map_cons]
  refine ⟨h.searched_next hclose hs hid hpath hway, h.grows.trans hclose.grows, fun _ => ?_,
    fun key => ?_, fun other hother => ?_, fun other key hother => ?_⟩
  · exact .inl (hids ▸ List.mem_cons_self)
  · rw [LeadsOn, (untouched_iff.1 hid).2, hclose.known, List.mem_cons]
    constructor
    · rintro rfl
      exact .inr ⟨rfl, .inl rfl⟩
    · rintro (⟨_, hinstalled⟩ | ⟨-, heq | hin⟩)
      · cases hinstalled
      · exact (Prod.mk.inj heq).2.symm
      · exact absurd (List.mem_map_of_mem hin) hunknown
  · rw [hids, List.mem_cons] at hother
    rcases hother with rfl | hother
    · exact .inr ⟨hid, .refl⟩
    · exact (h.reached other hother).imp_right fun hleans => ⟨hid, hleans⟩
  · rw [hclose.known] at hother
    rcases List.mem_cons.1 hother with heq | hother
    · obtain ⟨rfl, hkey⟩ := Prod.mk.inj heq
      exact .inr ⟨key, hkey.symm, .refl⟩
    · refine (h.joined other key hother).imp_right fun ⟨source, hsource, hchain⟩ =>
        ⟨⟨.passThrough, id⟩, hclose.step_eq hsource, (hclose.grows.chain hchain).trans ?_⟩
      by_cases hself : source = ⟨.passThrough, id⟩
      · rw [hself]
      · refine .single ⟨.soft, hclose.precedences ▸ List.mem_append_right _ (List.mem_flatMap.2
          ⟨source, hsource, mem_precede_iff.2 ⟨rfl, hself, fun _ => ?_⟩⟩)⟩
        rw [hsevered]
        exact List.not_mem_nil

end

/-- The search for the step that a need leads on to, be it an installer or a pass-through step. -/
theorem found_sourceAlong {depth : Nat} {path : List ObjectId} {web : Web} {need : ObjectId}
    (hweb : web.Searched st steps path)
    (hpass : st.installer? steps need = none → web.Found st steps path need
      (st.passThrough steps depth path web need).1 (st.passThrough steps depth path web need).2) :
    web.Found st steps path need (st.sourceAlong steps depth path web need).1
      (st.sourceAlong steps depth path web need).2 := by
  rw [sourceAlong]
  cases hinstaller : st.installer? steps need with
  | none => exact hpass hinstaller
  | some installer =>
    refine hweb.found (fun huntouched => ?_) fun key => ?_
    · rw [(untouched_iff.1 huntouched).2] at hinstaller
      cases hinstaller
    · simp [LeadsOn, hinstaller, Prod.ext_iff]

section
variable {path : List ObjectId} {web : Web} {id : ObjectId} (hweb : web.Searched st steps path)
variable (hidle : st.installer? steps id = none)
include hweb hidle

/-- The search for an object that is known finds what is known of it. -/
theorem Web.Searched.found_known {step : Option StepKey}
    (hlookup : web.known.lookup id = some step) : web.Found st steps path id web step := by
  have hmem : (id, step) ∈ web.known := by
    obtain ⟨before, after, heq, -⟩ := List.lookup_eq_some_iff.1 hlookup
    exact heq ▸ List.mem_append_right _ List.mem_cons_self
  refine hweb.found (fun _ => .inl (List.mem_map_of_mem hmem)) fun key => ?_
  simp only [LeadsOn, hidle, reduceCtorEq, exists_const, true_and, false_or]
  exact ⟨fun heq => heq ▸ hmem, fun hin => hweb.eq_of_mem hmem hin⟩

/-- The search finds nothing for an object that is not known as long as it is on the way, nor for
what the new snapshot does not have. -/
theorem Web.Searched.found_none (hunknown : id ∉ web.known.map (·.1))
    (habsent : st.Untouched steps id → id ∈ path) : web.Found st steps path id web none := by
  refine hweb.found (fun huntouched => .inr (habsent huntouched)) fun key => ?_
  simp only [LeadsOn, hidle, reduceCtorEq, exists_const, true_and, false_or, false_iff]
  exact fun hin => hunknown (List.mem_map_of_mem hin)

end

/-- **One search.** The search for the pass-through step of an object keeps what is known right. -/
theorem found_passThrough (hsevered : st.breaks.severed = []) {depth : Nat} {path : List ObjectId}
    {web : Web} {id : ObjectId} (hweb : web.Searched st steps path)
    (hidle : st.installer? steps id = none) (hpath : st.Way path)
    (hway : st.Untouched steps id → ∀ other ∈ path, ReflTransGen (st.Leans steps) other id)
    (hdepth : st.plan.new.size < depth + path.length) :
    web.Found st steps path id (st.passThrough steps depth path web id).1
      (st.passThrough steps depth path web id).2 := by
  have hlen := hpath.length_le
  -- The room never runs out, since the way cannot grow beyond the snapshot.
  induction depth generalizing path web id with
  | zero => omega
  | succ depth ih =>
    have hunknown : web.known.lookup id = none → id ∉ web.known.map (·.1) := fun hlookup hin => by
      obtain ⟨pair, hpair, rfl⟩ := List.mem_map.1 hin
      simpa using List.lookup_eq_none_iff.1 hlookup pair hpair
    unfold passThrough
    split
    · next hlookup => exact hweb.found_known hidle hlookup
    · next hlookup hget =>
      refine hweb.found_none hidle (hunknown hlookup) fun huntouched => ?_
      have hheld := huntouched.held
      rw [Snapshot.not_contains_iff.2 hget] at hheld
      cases hheld
    · next statement hlookup hget =>
      split
      · next hin => exact hweb.found_none hidle (hunknown hlookup) fun _ => by simpa using hin
      · next hnotin =>
        have hnotin : id ∉ path := by simpa using hnotin
        have hid : st.Untouched steps id :=
          untouched_iff.2 ⟨Snapshot.contains_iff.2 ⟨_, hget⟩, hidle⟩
        have hnext := hpath.cons hnotin hget
        have hfind : ∀ {web : Web} (need : ObjectId), web.Searched st steps (id :: path) →
            st.plan.new.Needs st.extra.new id need →
            web.Found st steps (id :: path) need
              (st.sourceAlong steps depth (id :: path) web need).1
              (st.sourceAlong steps depth (id :: path) web need).2 := by
          intro web need hweb hneed
          refine found_sourceAlong hweb fun hidle => ih hweb hidle hnext (fun huntouched => ?_)
            (by rw [List.length_cons]; omega) hnext.length_le
          have hleans : st.Leans steps id need := ⟨⟨hid, huntouched⟩, hneed⟩
          exact List.forall_mem_cons.2 ⟨.single hleans, fun other hother =>
            (hway hid other hother).tail hleans⟩
        split
        next grown sources heq =>
        have hgathered : web.Gathered st steps path id (st.newNeeds statement) grown sources := by
          have hfold := Web.Gathered.foldl (st.sourceAlong steps depth (id :: path)) hid hfind
            (st.newNeeds statement) [] web [] (fun need hneed => (mem_newNeeds_iff hget).1 hneed)
            (hweb.enter (hunknown hlookup)).gathered
          have hstate : (st.newNeeds statement).foldl (fun state need =>
              ((st.sourceAlong steps depth (id :: path) state.1 need).1,
                state.2 ++ (st.sourceAlong steps depth (id :: path) state.1 need).2.toList))
              (web, []) = (grown, sources) := heq
          simpa only [hstate, List.nil_append] using hfold
        split
        · next hempty =>
          refine hgathered.found ⟨by rw [if_pos hempty], rfl, ?_, by simp⟩ hget hid hnotin
            (hway hid) hsevered
          simp [List.isEmpty_iff.1 hempty]
        · next hnonempty =>
          exact hgathered.found ⟨by rw [if_neg hnonempty], rfl, rfl, by simp⟩ hget hid hnotin
            (hway hid) hsevered

end Staging

end SchemaMigration
