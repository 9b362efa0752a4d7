import SchemaMigration.Proofs.Plan.Breaking
import SchemaMigration.Proofs.Plan.Selection

/-!
# Detaching every constraint

Detaching a constraint only adds steps: what travelled with a table gets steps of its own, and every
other step stays (`Staging.key_mem_fullyDetached`). A hard precedence stays too, or leads over the
drop of a constraint that used to go with its table (`Staging.transGen_of_hard`). So a component of
steps with nothing but hard precedences in it leaves a cycle of steps even when every constraint of
both snapshots is detached (`Staging.exists_cycle_of_component`).
-/

namespace SchemaMigration

open Relation

/-- A plan as it is when its steps are put in order: it is of two well-formed snapshots, it touches
no identity twice, and its treatments fit the snapshots. -/
structure Plan.Proper (plan : Plan) : Prop where
  old : plan.old.WellFormed
  new : plan.new.WellFormed
  distinct : plan.Distinct
  grounded : plan.Grounded

/-- The plans that elements give are proper once they are expanded. -/
theorem Plan.Initial.proper_expand {plan : Plan} (h : plan.Initial) (extra : List DependencyPair) :
    (plan.expand extra).Proper := by
  obtain ⟨hedited, -⟩ := h.expand extra
  have hadvances := hedited.advances h.new
  exact ⟨hadvances.old ▸ h.old, hadvances.new ▸ h.new, hedited.distinct h.distinct,
    hedited.grounded h.grounded⟩

namespace Staging

variable {st : Staging} {planned full : List Step} {id : ObjectId} {key : StepKey}

/-! ## Proper plans have steps -/

/-- An entry has its steps if its treatment fits the snapshots. -/
theorem exists_entrySteps {entry : PlanEntry} (h : entry.Grounded st.plan.old st.plan.new) :
    ∃ steps, st.entrySteps entry = .ok steps := by
  have hold : entry.treatment.drops = false ∨
      ∃ s, st.plan.old.require entry.id .old = .ok s := by
    by_cases hcreate : entry.treatment = .create
    · exact .inl (by rw [hcreate]; rfl)
    · obtain ⟨s, hs⟩ := Snapshot.contains_iff.1 (h.old hcreate)
      exact .inr ⟨s, Snapshot.require_eq_ok.2 hs⟩
  have hnew : entry.treatment.creates = false ∧ entry.treatment.alters = false ∨
      ∃ s, st.plan.new.require entry.id .new = .ok s := by
    by_cases hdrop : entry.treatment = .drop
    · exact .inl (by rw [hdrop]; exact ⟨rfl, rfl⟩)
    · obtain ⟨s, hs⟩ := Snapshot.contains_iff.1 (h.new hdrop)
      exact .inr ⟨s, Snapshot.require_eq_ok.2 hs⟩
  simp only [entrySteps]
  generalize (!(st.plan.droppedWithTable entry.id && st.travels entry.id)) = alone
  generalize (!(st.plan.createdWithTable entry.id && st.travels entry.id)) = apart
  rcases hold with hd | ⟨s, hs⟩ <;> rcases hnew with ⟨hc, ha⟩ | ⟨t, ht⟩
  · rw [hd, hc, ha]
    exact ⟨_, rfl⟩
  · rw [hd, ht]
    cases entry.treatment.creates && apart <;> cases entry.treatment.alters && apart <;>
      exact ⟨_, rfl⟩
  · rw [hs, hc, ha]
    cases entry.treatment.drops && alone <;> exact ⟨_, rfl⟩
  · rw [hs, ht]
    cases entry.treatment.drops && alone <;> cases entry.treatment.creates && apart <;>
      cases entry.treatment.alters && apart <;> exact ⟨_, rfl⟩

/-- A proper plan has its steps, whatever was given up. -/
theorem exists_stepGraph (hplan : st.plan.Proper) : ∃ graph, st.stepGraph = .ok graph := by
  have hsteps : ∀ entry ∈ st.plan.entries, ∃ steps, st.entrySteps entry = .ok steps :=
    fun entry hentry => exists_entrySteps
      (hplan.grounded entry.id entry (hplan.distinct.get?_of_mem hentry))
  obtain ⟨parts, hparts⟩ := exists_mapM_eq_ok hsteps
  exact ⟨_, stepGraph_iff.2 ⟨parts.flatten, bind_eq_ok.2 ⟨parts, hparts, rfl⟩, rfl⟩⟩

/-! ## Steps -/

/-- The constraints of both snapshots. -/
def constraints (st : Staging) : List ObjectId :=
  ((st.plan.old.statements ++ st.plan.new.statements).map (·.id)).filter (·.kind = .constraint)

/-- The plan with every constraint of both snapshots detached and nothing severed. -/
def fullyDetached (st : Staging) : Staging :=
  { st with breaks := { detached := st.constraints } }

/-- The constraints of both snapshots by where they are. -/
theorem mem_constraints : id ∈ st.constraints ↔ id.kind = .constraint ∧
    (st.plan.old.contains id = true ∨ st.plan.new.contains id = true) := by
  simp only [constraints, List.mem_filter, List.mem_map, List.mem_append, decide_eq_true_eq,
    Snapshot.contains_iff_exists_mem]
  constructor
  · rintro ⟨⟨s, hs | hs, rfl⟩, hkind⟩
    · exact ⟨hkind, .inl ⟨s, hs, rfl⟩⟩
    · exact ⟨hkind, .inr ⟨s, hs, rfl⟩⟩
  · rintro ⟨hkind, ⟨s, hs, rfl⟩ | ⟨s, hs, rfl⟩⟩
    · exact ⟨⟨s, .inl hs, rfl⟩, hkind⟩
    · exact ⟨⟨s, .inr hs, rfl⟩, hkind⟩

/-- Detaching changes nothing for what is no constraint. -/
theorem travels_fullyDetached (hkind : id.kind ≠ .constraint) :
    st.fullyDetached.travels id = st.travels id := by
  unfold travels
  split <;> simp_all

/-- What still travels with its table did so before. -/
theorem travels_of_fullyDetached (hbreaks : st.breaks.detached ⊆ st.constraints)
    (h : st.fullyDetached.travels id = true) : st.travels id = true := by
  by_cases hkind : id.kind = .constraint
  · simp only [travels, hkind, fullyDetached, Bool.not_eq_true', List.contains_eq_mem,
      decide_eq_false_iff_not] at h ⊢
    exact fun hin => h (hbreaks hin)
  · rwa [travels_fullyDetached hkind] at h

section
variable (hplanned : st.plannedSteps = .ok planned)
  (hfull : st.fullyDetached.plannedSteps = .ok full)
include hplanned hfull

/-- The step of an object that is no constraint is planned as before. -/
theorem planned_fullyDetached_iff (hkind : key.id.kind ≠ .constraint) :
    key ∈ full.map (·.key) ↔ key ∈ planned.map (·.key) := by
  rw [key_mem_planned hfull, key_mem_planned hplanned]
  refine exists_congr fun entry => and_congr_right fun _ => and_congr_right fun hid => ?_
  have htravels : st.fullyDetached.travels entry.id = st.travels entry.id :=
    travels_fullyDetached (hid ▸ hkind)
  cases key.kind <;> simp only [asks, htravels] <;> rfl

/-- The step of an object that is no constraint is there as before. -/
theorem allSteps_fullyDetached_iff (hbreaks : st.breaks.detached ⊆ st.constraints)
    (hkind : key.id.kind ≠ .constraint) :
    key ∈ (st.fullyDetached.allSteps full).map (·.key) ↔
      key ∈ (st.allSteps planned).map (·.key) := by
  have hnone : ∀ {st : Staging} {planned : List Step},
      (∀ id ∈ st.breaks.detached, id.kind = .constraint) →
        key ∉ (st.detachedSteps planned).map (·.key) := fun hdetached hin =>
    hkind (hdetached _ (key_mem_detachedSteps.1 hin).1)
  simp only [allSteps, List.map_append, List.mem_append]
  rw [or_iff_left (hnone fun id hid => (mem_constraints.1 hid).1),
    or_iff_left (hnone fun id hid => (mem_constraints.1 (hbreaks hid)).1)]
  exact planned_fullyDetached_iff hplanned hfull hkind

/-- Every planned step is still planned when every constraint is detached. -/
theorem key_mem_planned_fullyDetached (hbreaks : st.breaks.detached ⊆ st.constraints)
    (hkey : key ∈ planned.map (·.key)) : key ∈ full.map (·.key) := by
  obtain ⟨entry, hentry, hid, hasks⟩ := (key_mem_planned hplanned).1 hkey
  refine (key_mem_planned hfull).2 ⟨entry, hentry, hid, ?_⟩
  have htravels : st.travels entry.id = false → st.fullyDetached.travels entry.id = false := by
    intro h
    rw [← Bool.not_eq_true] at h ⊢
    exact fun hfully => h (travels_of_fullyDetached hbreaks hfully)
  cases hkind : key.kind <;> rw [hkind] at hasks <;>
    simp only [asks, Bool.and_eq_true, Bool.not_eq_true', Bool.and_eq_false_iff] at hasks ⊢
  case passThrough => cases hasks
  all_goals exact ⟨hasks.1, hasks.2.imp_right htravels⟩

/-- Every step stays when every constraint is detached. -/
theorem key_mem_fullyDetached (hbreaks : st.breaks.detached ⊆ st.constraints)
    (hkey : key ∈ (st.allSteps planned).map (·.key)) :
    key ∈ (st.fullyDetached.allSteps full).map (·.key) := by
  rw [allSteps, List.map_append, List.mem_append] at hkey ⊢
  rcases hkey with hkey | hkey
  · exact .inl (key_mem_planned_fullyDetached hplanned hfull hbreaks hkey)
  · obtain ⟨hid, hkind, hheld, htable, -⟩ := key_mem_detachedSteps.1 hkey
    by_cases hin : key ∈ full.map (·.key)
    · exact .inl hin
    · exact .inr (key_mem_detachedSteps.2 ⟨hbreaks hid, hkind, hheld,
        key_mem_planned_fullyDetached hplanned hfull hbreaks htable, hin⟩)

/-- Every step stays, with its statement. -/
theorem exists_step_fullyDetached (hbreaks : st.breaks.detached ⊆ st.constraints) {step : Step}
    (hstep : step ∈ st.allSteps planned) : ∃ other ∈ st.fullyDetached.allSteps full,
      other.key = step.key ∧ other.statement = step.statement := by
  obtain ⟨other, hother, hkey⟩ := List.mem_map.1
    (key_mem_fullyDetached hplanned hfull hbreaks (List.mem_map_of_mem hstep))
  have hstatement : some other.statement = some step.statement := by
    rw [← statement?_of_mem_allSteps hfull hother, hkey,
      ← statement?_of_mem_allSteps hplanned hstep]
    rfl
  exact ⟨other, hother, hkey, Option.some.inj hstatement⟩

end

/-! ## Precedences -/

section
variable (hplan : st.plan.Proper) (hbreaks : st.breaks.detached ⊆ st.constraints)
  (hplanned : st.plannedSteps = .ok planned) (hfull : st.fullyDetached.plannedSteps = .ok full)
include hplan hbreaks hplanned hfull

/-- What is altered and not created is not created either when every constraint is detached. -/
theorem not_created_of_altered (halter : ⟨.alter, id⟩ ∈ (st.allSteps planned).map (·.key))
    (hcreate : ⟨.create, id⟩ ∉ (st.allSteps planned).map (·.key)) :
    ⟨.create, id⟩ ∉ (st.fullyDetached.allSteps full).map (·.key) := by
  by_cases hkind : id.kind = .constraint
  · intro hin
    rw [allSteps, List.map_append, List.mem_append] at halter hcreate hin
    have halter := halter.resolve_right fun h => by simpa using (key_mem_detachedSteps.1 h).2.1
    obtain ⟨entry, hentry, hid, hasks⟩ := (key_mem_planned hplanned).1 halter
    simp only [asks, Bool.and_eq_true, Bool.not_eq_true', Bool.and_eq_false_iff] at hasks
    rcases hin with hin | hin
    · obtain ⟨other, hother, hid', hasks'⟩ := (key_mem_planned hfull).1 hin
      obtain rfl : entry = other :=
        List.inj_on_of_nodup_map hplan.distinct hentry hother (hid.trans hid'.symm)
      simp only [asks, Bool.and_eq_true] at hasks'
      cases htreatment : entry.treatment <;>
        simp [htreatment, Treatment.creates, Treatment.alters] at hasks hasks'
    · -- The table is created, so an alteration of the constraint was not absorbed only if the
      -- constraint was detached before, and then it was created.
      obtain ⟨hsub, owner, hparent, howner⟩ := exists_owner_of_detached hin hplan.new
      change st.plan.new.parent? id = some owner at hparent
      have howner : ⟨.create, owner⟩ ∈ planned.map (·.key) := by
        refine (planned_fullyDetached_iff hplanned hfull ?_).1 howner
        rintro (heq : owner.kind = .constraint)
        exact absurd (hplan.new.not_isSubElement_of_parent? hparent) (by rw [heq]; decide)
      have htop := hplan.new.topLevel_of_parent? hsub hparent
      rcases hasks.2 with hcreated | htravels
      · obtain ⟨table, htable, htableId, hcreates⟩ := (key_mem_planned hplanned).1 howner
        change table.id = owner at htableId
        have htreats : st.plan.treats owner Treatment.creates = true :=
          Plan.treats_iff.2 ⟨table, htableId ▸ hplan.distinct.get?_of_mem htable,
            (Bool.and_eq_true_iff.1 hcreates).1⟩
        rw [hid, Plan.createdWithTable, htop, htreats] at hcreated
        simp [show id.kind.isSubElement = true from hsub] at hcreated
      · rw [hid] at htravels
        have hdetached : id ∈ st.breaks.detached := by
          simpa [travels, hkind] using htravels
        refine hcreate (.inr (key_mem_detachedSteps.2 ⟨hdetached, .inl rfl,
          Snapshot.contains_of_parent? hparent, ?_, fun h => hcreate (.inl h)⟩))
        change ⟨.create, st.plan.new.topLevel id⟩ ∈ planned.map (·.key)
        rwa [htop]
  · rwa [allSteps_fullyDetached_iff hplanned hfull hbreaks hkind]

/-- What another step brings to its new form for a hard reason, this step still does when every
constraint is detached. -/
theorem installer?_fullyDetached {earlier : StepKey}
    (h : st.installer? (st.allSteps planned) id = some (earlier, .hard)) :
    st.fullyDetached.installer? (st.fullyDetached.allSteps full) id = some (earlier, .hard) := by
  have hstays : ∀ {key}, key ∈ (st.allSteps planned).map (·.key) →
      key ∈ (st.fullyDetached.allSteps full).map (·.key) :=
    fun hkey => key_mem_fullyDetached hplanned hfull hbreaks hkey
  rw [installer?_eq_some] at h ⊢
  rcases h with ⟨rfl, -, hin⟩ | ⟨rfl, -, hcreate, hin⟩ |
    ⟨rfl, hreason, hcreate, halter, hsub, htravels, hin⟩
  · exact .inl ⟨rfl, rfl, hstays hin⟩
  · exact .inr (.inl ⟨rfl, rfl,
      not_created_of_altered hplan hbreaks hplanned hfull hin hcreate, hstays hin⟩)
  · have hkind : id.kind ≠ .constraint := by
      intro heq
      simp [heq] at hreason
    refine .inr (.inr ⟨rfl, hreason, ?_, ?_, hsub, ?_, hstays hin⟩)
    · rwa [allSteps_fullyDetached_iff hplanned hfull hbreaks hkind]
    · rwa [allSteps_fullyDetached_iff hplanned hfull hbreaks hkind]
    · rwa [travels_fullyDetached hkind]

omit hplan hbreaks hplanned in
/-- When every constraint is detached, a constraint of a dropped table has a drop of its own, which
runs before that of the table. -/
theorem drop_of_constraint (hold : st.plan.old.WellFormed) {owner : ObjectId}
    (hkind : id.kind = .constraint) (hparent : st.plan.old.parent? id = some owner)
    (howner : ⟨.drop, owner⟩ ∈ (st.fullyDetached.allSteps full).map (·.key)) :
    ∃ step ∈ st.fullyDetached.allSteps full, step.key = ⟨.drop, id⟩ ∧
      ⟨⟨.drop, id⟩, ⟨.drop, owner⟩, .hard⟩ ∈
        st.fullyDetached.removal (st.fullyDetached.allSteps full) step := by
  obtain ⟨s, hs, hsparent⟩ := Snapshot.parent?_eq_some.1 hparent
  have htop := hold.topLevel_of_parent? (by rw [hkind]; rfl) hparent
  have hnotSub := hold.not_isSubElement_of_parent? hparent
  -- The table is no constraint, so its drop was planned.
  have hplannedOwner : ⟨.drop, owner⟩ ∈ full.map (·.key) := by
    rw [allSteps, List.map_append, List.mem_append] at howner
    refine howner.resolve_right fun hdetached => ?_
    have hownerKind := (mem_constraints.1 (key_mem_detachedSteps.1 hdetached).1).1
    rw [show owner.kind = .constraint from hownerKind] at hnotSub
    cases hnotSub
  have hown : ⟨.drop, id⟩ ∈ (st.fullyDetached.allSteps full).map (·.key) := by
    rw [allSteps, List.map_append, List.mem_append]
    by_cases hplannedDrop : ⟨.drop, id⟩ ∈ full.map (·.key)
    · exact .inl hplannedDrop
    · have hheld : st.plan.old.contains id = true := Snapshot.contains_iff.2 ⟨s, hs⟩
      refine .inr (key_mem_detachedSteps.2 ⟨mem_constraints.2 ⟨hkind, .inl hheld⟩, .inr rfl,
        hheld, ?_, hplannedDrop⟩)
      change ⟨.drop, st.plan.old.topLevel id⟩ ∈ full.map (·.key)
      rwa [htop]
  obtain ⟨step, hstep, hkey⟩ := List.mem_map.1 hown
  refine ⟨step, hstep, hkey,
    mem_removal_iff.2 (.inr ⟨owner, ?_, Steps.has_iff.2 howner, ?_, by rw [hkey]⟩)⟩
  · have hstatement := statement?_of_mem_allSteps hfull hstep
    rw [hkey] at hstatement
    rw [← Option.some.inj (hs.symm.trans hstatement)]
    exact hsparent
  · rw [hkey]
    intro heq
    exact hold.ne_of_parent? hparent (StepKey.mk.inj heq).2.symm

/-- What another step drops, this step still drops when every constraint is detached, or a drop of
its own before it. -/
theorem remover?_fullyDetached {later : StepKey}
    (h : st.remover? (st.allSteps planned) id = some later) :
    st.fullyDetached.remover? (st.fullyDetached.allSteps full) id = some later ∨
      st.fullyDetached.remover? (st.fullyDetached.allSteps full) id = some ⟨.drop, id⟩ ∧
        ∃ step ∈ st.fullyDetached.allSteps full, step.key = ⟨.drop, id⟩ ∧
          ⟨⟨.drop, id⟩, later, .hard⟩ ∈
            st.fullyDetached.removal (st.fullyDetached.allSteps full) step := by
  have hstays : ∀ {key}, key ∈ (st.allSteps planned).map (·.key) →
      key ∈ (st.fullyDetached.allSteps full).map (·.key) :=
    fun hkey => key_mem_fullyDetached hplanned hfull hbreaks hkey
  rcases remover?_eq_some.1 h with ⟨rfl, hin⟩ | ⟨rfl, hdrop, hsub, htravels, hin⟩
  · exact .inl (remover?_eq_some.2 (.inl ⟨rfl, hstays hin⟩))
  · by_cases hkind : id.kind = .constraint
    · -- What is not in the old snapshot would be its own table.
      have hheld : st.plan.old.contains id = true := by
        rw [← Bool.not_eq_false]
        intro hnot
        rw [Snapshot.topLevel_of_not_contains hnot] at hin
        exact hdrop hin
      obtain ⟨owner, hparent⟩ := hplan.old.exists_parent? hheld
        fun heq => by rw [heq] at hkind; cases hkind
      rw [hplan.old.topLevel_of_parent? hsub hparent] at hin ⊢
      obtain ⟨step, hstep, hkey, hp⟩ :=
        drop_of_constraint hfull hplan.old hkind hparent (hstays hin)
      exact .inr ⟨remover?_eq_some.2 (.inl ⟨rfl, hkey ▸ List.mem_map_of_mem hstep⟩),
        step, hstep, hkey, hp⟩
    · refine .inl (remover?_eq_some.2 (.inr ⟨rfl, ?_, hsub, ?_, hstays hin⟩))
      · rwa [allSteps_fullyDetached_iff hplanned hfull hbreaks hkind]
      · rwa [travels_fullyDetached hkind]

/-- A step that runs before whatever drops an object when every constraint is detached runs before
what dropped it when fewer were. -/
theorem transGen_of_remover? {later : StepKey}
    (h : st.remover? (st.allSteps planned) id = some later) (hdrop : key ≠ ⟨.drop, id⟩)
    (hlater : key ≠ later)
    (hbefore : ∀ other, st.fullyDetached.remover? (st.fullyDetached.allSteps full) id = some other →
      key ≠ other → st.fullyDetached.Asked full ⟨key, other, .hard⟩) :
    TransGen (fun a b => st.fullyDetached.Asked full ⟨a, b, .hard⟩) key later := by
  rcases remover?_fullyDetached hplan hbreaks hplanned hfull h with hremover |
    ⟨hremover, step, hstep, hkey, hp⟩
  · exact .single (hbefore later hremover hlater)
  · exact .tail (.single (hbefore _ hremover hdrop)) (.removal hstep (by rw [hkey]) hp)

omit hplan hbreaks hplanned hfull in
/-- What is carried on nobody's account still is when every constraint is detached. -/
theorem carried_fullyDetached {s t : Statement} {children : List Statement}
    (h : (s, none) ∈ st.carried t children) : (s, none) ∈ st.fullyDetached.carried t children := by
  rcases List.mem_cons.1 h with heq | hmap
  · rw [(Prod.mk.inj heq).1]
    exact List.mem_cons_self
  · obtain ⟨child, hchild, heq⟩ := List.mem_map.1 hmap
    obtain ⟨hmem, htravels⟩ := List.mem_filter.1 hchild
    refine List.mem_cons_of_mem _ (List.mem_map.2 ⟨child, List.mem_filter.2 ⟨hmem, ?_⟩, heq⟩)
    have hkind : child.id.kind ≠ .constraint := by
      intro (hkind : child.kind = .constraint)
      rw [if_pos hkind] at heq
      cases (Prod.mk.inj heq).2
    simpa only [travels_fullyDetached hkind] using htravels

/-- What a drop runs before for a hard reason it runs before when every constraint is detached, or
the drop of a constraint lies between. -/
theorem transGen_of_removal {step : Step} {p : Precedence} (hstep : step ∈ st.allSteps planned)
    (hdrop : step.key.kind = .drop) (hp : p ∈ st.removal (st.allSteps planned) step)
    (hreason : p.reason = .hard) :
    TransGen (fun a b => st.fullyDetached.Asked full ⟨a, b, .hard⟩) p.earlier p.later := by
  have hstays : ∀ {key}, Steps.has (st.allSteps planned) key = true →
      Steps.has (st.fullyDetached.allSteps full) key = true := fun hkey => Steps.has_iff.2
    (key_mem_fullyDetached hplanned hfull hbreaks (Steps.has_iff.1 hkey))
  obtain ⟨other, hother, hkey, hstatement⟩ :=
    exists_step_fullyDetached hplanned hfull hbreaks hstep
  rcases mem_removal_iff.1 hp with
    ⟨s, constraint, need, later, hcarried, hneed, hout, hforeign, hlater, hdiff, rfl⟩ |
    ⟨parent, hparent, hhas, hdiff, rfl⟩
  · cases constraint with
    | some constraint => cases hreason
    | none =>
      have hbefore : ∀ target, (st.fullyDetached.remover? (st.fullyDetached.allSteps full) need =
            some target ∨ target = ⟨.alter, need⟩ ∧
              Steps.has (st.fullyDetached.allSteps full) target = true) →
          step.key ≠ target → st.fullyDetached.Asked full ⟨step.key, target, .hard⟩ := by
        intro target htarget hdiff'
        rw [← hkey] at hcarried hout hforeign hdiff' ⊢
        rw [← hstatement] at hcarried
        exact .removal hother (hkey ▸ hdrop) (mem_removal_iff.2 (.inl
          ⟨s, none, need, target, carried_fullyDetached hcarried, hneed, hout, hforeign, htarget,
            hdiff', rfl⟩))
      rcases hlater with hremover | ⟨rfl, hhas⟩
      · refine transGen_of_remover? hplan hbreaks hplanned hfull hremover ?_ hdiff
          fun target htarget => hbefore target (.inl htarget)
        rintro (heq : step.key = _)
        exact hout (by rw [heq])
      · exact .single (hbefore _ (.inr ⟨rfl, hstays hhas⟩) hdiff)
  · refine .single (.removal hother (hkey ▸ hdrop) (mem_removal_iff.2 (.inr ⟨parent,
      hstatement ▸ hparent, hstays hhas, hkey ▸ hdiff, ?_⟩)))
    rw [hkey]

/-- A hard precedence is still there when every constraint is detached, or the drop of a constraint
lies between its steps. -/
theorem transGen_of_hard {p : Precedence} (h : st.Asked planned p) (hreason : p.reason = .hard) :
    TransGen (fun a b => st.fullyDetached.Asked full ⟨a, b, .hard⟩) p.earlier p.later := by
  have hstays : ∀ {key}, key ∈ (st.allSteps planned).map (·.key) →
      key ∈ (st.fullyDetached.allSteps full).map (·.key) :=
    fun hkey => key_mem_fullyDetached hplanned hfull hbreaks hkey
  have hne := h.spec.2.2.1
  cases h with
  | @need step constraint need earlier reason hstep hbrings hinstalled =>
    obtain ⟨other, hother, hkey, hstatement⟩ :=
      exists_step_fullyDetached hplanned hfull hbreaks hstep
    cases constraint with
    | some constraint => cases hreason
    | none =>
      obtain rfl : reason = .hard := hreason
      have hinstalled' := installer?_fullyDetached hplan hbreaks hplanned hfull hinstalled
      obtain ⟨s, hcarried, hneed⟩ := hbrings.needs
      have hbrings' : st.fullyDetached.Brings other none need := by
        refine ⟨hkey ▸ hbrings.kind, ⟨s, ?_, hneed⟩, hkey ▸ hbrings.outside⟩
        rw [hkey, hstatement]
        exact carried_fullyDetached hcarried
      rw [← hkey] at hne ⊢
      exact .single (.need hother hbrings' hinstalled' hne)
  | @afterDrops step p hstep hcreate hp =>
    obtain ⟨other, hother, hkey, hstatement⟩ :=
      exists_step_fullyDetached hplanned hfull hbreaks hstep
    obtain ⟨earlier, hearlier, hdiff, rfl⟩ := mem_afterDrops_iff.1 hp
    refine .single (.afterDrops hother (hkey ▸ hcreate)
      (mem_afterDrops_iff.2 ⟨earlier, ?_, hkey ▸ hdiff, by rw [hkey]⟩))
    rw [hkey, hstatement]
    refine hearlier.imp (And.imp_right hstays) (And.imp_left fun hin => ?_)
    exact key_mem_planned_fullyDetached hplanned hfull hbreaks hin
  | @released step p hstep halter hp =>
    obtain ⟨other, hother, hkey, hstatement⟩ :=
      exists_step_fullyDetached hplanned hfull hbreaks hstep
    obtain ⟨previous, need, later, hprevious, hneed, hreleased, hremover, hdiff, rfl⟩ :=
      mem_beforeReleased_iff.1 hp
    refine transGen_of_remover? hplan hbreaks hplanned hfull hremover ?_ hdiff ?_
    · rintro (heq : step.key = _)
      rw [heq] at halter
      cases halter
    · intro target htarget hdiff'
      rw [← hkey] at hprevious hdiff' ⊢
      exact .released hother (hkey ▸ halter) (mem_beforeReleased_iff.2
        ⟨previous, need, target, hprevious, hneed, hstatement ▸ hreleased, htarget, hdiff', rfl⟩)
  | removal hstep hdrop hp =>
    exact transGen_of_removal hplan hbreaks hplanned hfull hstep hdrop hp hreason

end

/-! ## Components that cannot be broken -/

/-- A component with nothing but hard precedences in it leaves a cycle when every constraint is
detached, and this cycle does not run through pass-through steps. -/
theorem exists_cycle_of_component (hplan : st.plan.Proper)
    (hbreaks : st.breaks.detached ⊆ st.constraints) {graph : StepGraph} {component : List StepKey}
    (hgraph : st.stepGraph = .ok graph) (hcomponent : graph.IsComponent component)
    (hhard : ∀ p ∈ graph.inside component, p.reason = .hard) :
    ∃ full, st.fullyDetached.stepGraph = .ok full ∧
      ∃ key, TransGen full.BeforeDirectly key key := by
  obtain ⟨full, hfull⟩ : ∃ full, st.fullyDetached.stepGraph = .ok full := exists_stepGraph hplan
  refine ⟨full, hfull, ?_⟩
  obtain ⟨planned, hplanned, rfl⟩ := stepGraph_iff.1 hgraph
  obtain ⟨fullPlanned, hfullPlanned, rfl⟩ := stepGraph_iff.1 hfull
  obtain ⟨key, hkey⟩ := List.exists_mem_of_length_pos (Nat.zero_lt_of_lt hcomponent.size)
  have hcycle := hcomponent.transGen_inside hkey hkey ((hcomponent.joined key hkey key).1 hkey).1
  refine ⟨key, TransGen.closed ?_ _ _ hcycle⟩
  rintro _ _ ⟨p, hp, rfl, rfl⟩
  have hasked : st.Asked planned p :=
    (mem_web_iff (by simp [hhard p hp])).1 (StepGraph.mem_inside.1 hp).1
  refine TransGen.mono ?_ _ _
    (transGen_of_hard hplan hbreaks hplanned hfullPlanned hasked (hhard p hp))
  intro a b hab
  have hspec := hab.spec
  exact ⟨⟨.hard, (mem_web_iff (by simp)).2 hab⟩, kind_ne_passThrough hfullPlanned hspec.1,
    kind_ne_passThrough hfullPlanned hspec.2.1⟩

/-- **Cycle breaking gives up only when it must.** If the cycles of a plan cannot be resolved, then
the steps still form a cycle when every constraint of both snapshots is detached, even if
precedences through pass-through steps are left aside. The objects that the fault names are those of
a component of the graph that some rounds led to, in which all precedences are hard. -/
theorem unresolvable_cycle {plan : Plan} {extra : ExtraDependencies} {names : List String}
    (hplan : plan.Proper) (h : acyclicGraph { plan, extra } = .error (.unresolvableCycle names)) :
    (∃ full, (fullyDetached { plan, extra }).stepGraph = .ok full ∧
      ∃ key, TransGen full.BeforeDirectly key key) ∧
    ∃ breaks graph component, ReflTransGen (Round { plan, extra }) {} breaks ∧
      stepGraph { plan, extra, breaks } = .ok graph ∧ graph.IsComponent component ∧
      (∀ p ∈ graph.precedences, p.earlier ∈ component → p.later ∈ component → p.reason = .hard) ∧
      names.Nodup ∧ ∀ name, name ∈ names ↔ ∃ key ∈ component, key.id.display = name := by
  have hbreaking : Breaking { plan, extra } {} (acyclicGraph { plan, extra }) :=
    breaking_acyclicGraph
  rw [h] at hbreaking
  obtain ⟨breaks, hrounds, hend⟩ := hbreaking.exists_rounds
  have hbounded := bounded_of_rounds hrounds (bounded_nil _)
  have hmade : ∃ graph, stepGraph { plan, extra, breaks } = .ok graph := exists_stepGraph hplan
  rcases hend with ⟨e, hfault, -⟩ | ⟨graph, hgraph, ⟨-, hdone⟩ | ⟨e, herror, he⟩⟩
  · obtain ⟨graph, hgraph⟩ := hmade
    rw [hgraph] at hfault
    cases hfault
  · cases hdone
  · obtain rfl := Except.error.inj he
    obtain ⟨component, hmem, sofar, hunbroken⟩ := exists_of_foldlM_eq_error herror
    obtain ⟨hnames, hhard⟩ := StepGraph.breakComponent_eq_error hunbroken
    have hsound : graph.Sound := by
      refine sound_of_stepGraph ?_ hgraph
      exact hplan.distinct
    have hcomponent := hsound.isComponent_of_mem hmem
    have hcycle : ∃ full, (fullyDetached { plan, extra, breaks }).stepGraph = .ok full ∧
        ∃ key, TransGen full.BeforeDirectly key key := by
      refine exists_cycle_of_component ?_ (fun id hid => ?_) hgraph hcomponent hhard
      · exact hplan
      · exact mem_constraints.2 (hbounded.constraints id hid)
    refine ⟨hcycle, breaks, graph, component, hrounds, hgraph, hcomponent,
      fun p hp hearlier hlater => hhard p (StepGraph.mem_inside.2 ⟨hp, hearlier, hlater⟩), ?_⟩
    obtain rfl := MigrationError.unresolvableCycle.inj hnames
    have hperm := List.mergeSort_perm ((component.map (·.id.display)).eraseDups)
      fun a b => (compare a b).isLE
    refine ⟨hperm.nodup_iff.2 (nodup_eraseDups _), fun name => ?_⟩
    rw [hperm.mem_iff, List.mem_eraseDups, List.mem_map]

namespace MutualViews

/-- A view of the schema `a`. -/
def view (name : String) : ObjectId := ⟨.view, ["a", name]⟩

/-- A schema with some views. -/
def snapshot (names : List String) : Snapshot where
  dialect := .postgres
  statements :=
    [{ id := .database, parent := none, definition := .database, children := [⟨.schema, ["a"]⟩] },
     { id := ⟨.schema, ["a"]⟩, parent := some .database, definition := .schema {},
       children := names.map view }] ++
    names.map fun name =>
      { id := view name, parent := some ⟨.schema, ["a"]⟩,
        definition := .view { query := "SELECT 1" } }
  fingerprints := []

/-- Each of the two views is said to need the other one. -/
def extra : ExtraDependencies := { new := [⟨view "v", view "w"⟩, ⟨view "w", view "v"⟩] }

/-- Two new views that need each other cannot be put in order, and there is no constraint that could
be detached. -/
theorem views_unresolvable :
    ∃ plan names, Plan.ofElements (snapshot []) (snapshot ["v", "w"])
        [⟨view "v", .onlyNew⟩, ⟨view "w", .onlyNew⟩] = .ok plan ∧
      acyclicGraph { plan := plan.expand [], extra } = .error (.unresolvableCycle names) ∧
      ∃ full, (fullyDetached { plan := plan.expand [], extra }).stepGraph = .ok full ∧
        ∃ key, TransGen full.BeforeDirectly key key := by
  obtain ⟨plan, hplan, htest⟩ := exists_ok_of_test (p := fun plan : Plan =>
      match acyclicGraph { plan := plan.expand [], extra } with
      | .error (.unresolvableCycle _) => true
      | _ => false)
    (show (Plan.ofElements (snapshot []) (snapshot ["v", "w"])
      [⟨view "v", .onlyNew⟩, ⟨view "w", .onlyNew⟩]).toOption.any _ = true by decide +kernel)
  have hinitial := (Plan.initial_of_ofElements (by decide +kernel) (by decide +kernel) hplan).1
  split at htest
  · next names hfault =>
    exact ⟨plan, names, hplan, hfault, (unresolvable_cycle (hinitial.proper_expand []) hfault).1⟩
  · cases htest

end MutualViews

end Staging

end SchemaMigration
