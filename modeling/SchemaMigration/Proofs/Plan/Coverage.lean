import SchemaMigration.Proofs.Difference.Elements
import SchemaMigration.Proofs.Plan.Selection

/-!
# Plans that cover the differences of snapshots

A plan covers the differences of its snapshots if it creates what is new and drops what is gone,
except for columns, which come and go with their table (`Plan.Covers`). The plan of elements that
tell the differences does (`Plan.covers_of_tells`): the first element of an object decides on it.
Expansion leaves it at that (`Plan.Covers.edited`).
-/

namespace SchemaMigration.Plan

variable {old new : Snapshot} {plan next : Plan} {elements : List Element} {id : ObjectId}
  {extra : List DependencyPair}

/-- The first element of an object decides on it. -/
theorem exists_decision_of_first {element : Element} (h : ofElements old new elements = .ok plan)
    (hfirst : elements.find? (·.id == id) = some element) :
    ∃ decision, element.Decides old new decision ∧ (decision.treatment ≠ .nothing →
      ∃ entry, plan.get? id = some entry ∧ entry.treatment = decision.treatment) := by
  obtain rfl : element.id = id := by simpa using List.find?_some hfirst
  -- Either the element is still to come and its object untouched, or it has decided.
  have hresult := foldlM_preserves_rest (fun (rest : List (Element × Nat)) (plan : Plan) =>
    plan.old = old ∧ plan.new = new ∧
      ((plan.get? element.id = none ∧ (rest.map (·.1)).find? (·.id == element.id) = some element) ∨
        ∃ decision, element.Decides old new decision ∧ (decision.treatment ≠ .nothing →
          ∃ entry, plan.get? element.id = some entry ∧ entry.treatment = decision.treatment))) h
    ⟨rfl, rfl, .inl ⟨rfl, by rw [List.zipIdx_map_fst, hfirst]⟩⟩ ?_
  · exact hresult.2.2.resolve_left fun hcoming => by cases hcoming.2
  rintro ⟨other, order⟩ rest plan next ⟨rfl, rfl, hplan⟩ hselect
  rcases select_eq_ok hselect with ⟨rfl, hknown⟩ | ⟨habsent, decision, hdecides, -, rfl⟩
  · refine ⟨rfl, rfl, ?_⟩
    rcases hplan with ⟨hnone, hcoming⟩ | hdecided
    · rw [List.map_cons, List.find?_cons] at hcoming
      split at hcoming
      · obtain rfl := Option.some.inj hcoming
        rcases hknown with hcontains | ⟨decision, hdecides, hnothing⟩
        · rw [get?_eq_none_iff.1 hnone] at hcontains
          cases hcontains
        · exact .inr ⟨decision, hdecides, fun htouched => absurd hnothing htouched⟩
      · exact .inl ⟨hnone, hcoming⟩
    · exact .inr hdecided
  · refine ⟨rfl, rfl, ?_⟩
    have hget := @get?_append plan
      ⟨other.id, decision.treatment, .selected, order, decision.statements⟩ habsent
    rcases hplan with ⟨hnone, hcoming⟩ | ⟨decided, hdecided, hentry⟩
    · rw [List.map_cons, List.find?_cons] at hcoming
      split at hcoming
      · obtain rfl := Option.some.inj hcoming
        exact .inr ⟨decision, hdecides, fun _ => ⟨_, by rw [hget, if_pos rfl], rfl⟩⟩
      · next hother =>
        refine .inl ⟨?_, hcoming⟩
        rw [hget, if_neg (fun heq => by simp [heq] at hother), hnone]
    · refine .inr ⟨decided, hdecided, fun htouched => ?_⟩
      obtain ⟨entry, hentry, htreatment⟩ := hentry htouched
      refine ⟨entry, ?_, htreatment⟩
      rw [hget, if_neg, hentry]
      rintro heq
      rw [heq, habsent] at hentry
      cases hentry

/-- A plan covers the differences of its snapshots: what is not on both sides under one parent is
created or dropped, and nothing else is; but columns may come and go with their table. -/
structure Covers (plan : Plan) : Prop where
  created : ∀ {id}, plan.new.contains id = true → plan.old.parent? id ≠ plan.new.parent? id →
    (id.kind = .column →
      ∀ table, plan.new.parent? id = some table → plan.old.contains table = true) →
        ∃ entry, plan.get? id = some entry ∧ entry.treatment = .create
  dropped : ∀ {id}, plan.old.contains id = true → plan.new.contains id = false →
    (id.kind = .column →
      ∀ table, plan.old.parent? id = some table → plan.new.contains table = true) →
        ∃ entry, plan.get? id = some entry ∧ entry.treatment = .drop
  truthful : plan.Truthful (fun id => plan.old.parent? id ≠ plan.new.parent? id)
    fun id => plan.old.parent? id ≠ plan.new.parent? id

/-- What one of two snapshots holds does not stand under the same parent in both. -/
theorem parent?_ne_of_contains {a b : Snapshot} (ha : a.WellFormed) (hb : b.WellFormed)
    (hia : a.contains id = true) (hib : b.contains id = false) : a.parent? id ≠ b.parent? id := by
  intro heq
  obtain ⟨parent, hp⟩ := ha.exists_parent? hia (by rintro rfl; rw [hb.rooted] at hib; cases hib)
  rw [Snapshot.contains_of_parent? (heq ▸ hp)] at hib
  cases hib

/-- The plan of elements that tell how two snapshots differ covers the differences. -/
theorem covers_of_tells (hold : old.WellFormed) (hnew : new.WellFormed)
    (htells : Difference.Tells old new elements) (h : ofElements old new elements = .ok plan) :
    plan.Covers := by
  obtain ⟨-, hplanOld, hplanNew⟩ := initial_of_ofElements hold hnew h
  -- An element that does not name both sides has an entry for its side.
  have hentry : ∀ {id element}, elements.find? (·.id == id) = some element →
      old.parent? id ≠ new.parent? id →
        (element.presence = .onlyNew ∧ ∃ entry, plan.get? id = some entry ∧
          entry.treatment = .create) ∨
        (element.presence = .onlyOld ∧ ∃ entry, plan.get? id = some entry ∧
          entry.treatment = .drop) := by
    intro id element hfind hne
    obtain rfl : element.id = id := by simpa using List.find?_some hfind
    obtain ⟨decision, hdecides, hentry⟩ := exists_decision_of_first h hfind
    have hpresence := htells.presence element (List.mem_of_find?_eq_some hfind)
    cases hcases : element.presence with
    | onlyNew =>
      have htreatment := hdecides.create.2 hcases
      rw [htreatment] at hentry
      exact .inl ⟨rfl, hentry (by simp)⟩
    | onlyOld =>
      have htreatment := hdecides.drop.2 hcases
      rw [htreatment] at hentry
      exact .inr ⟨rfl, hentry (by simp)⟩
    | both => exact absurd (hpresence.1 hcases) hne
  have hfind : ∀ {id presence}, ⟨id, presence⟩ ∈ elements →
      ∃ element, elements.find? (·.id == id) = some element := fun {id presence} hmem =>
    Option.isSome_iff_exists.1 (List.find?_isSome.2 ⟨_, hmem, beq_self_eq_true id⟩)
  refine ⟨fun {id} hid hne hcolumns => ?_, fun {id} hid hgone hcolumns => ?_, ?_⟩ <;>
    rw [hplanOld, hplanNew] at *
  · obtain ⟨element, hfirst⟩ := hfind (htells.added hid hne hcolumns)
    rcases hentry hfirst hne with ⟨-, hcreate⟩ | ⟨hpresence, -⟩
    · exact hcreate
    · exact absurd hpresence (htells.newFirst id element hid hfirst)
  · have hne := parent?_ne_of_contains hold hnew hid hgone
    obtain ⟨element, hfirst⟩ := hfind (htells.gone hid hne hcolumns)
    rcases hentry hfirst hne with ⟨hpresence, -⟩ | ⟨-, hdrop⟩
    · obtain rfl : element.id = id := by simpa using List.find?_some hfirst
      obtain ⟨decision, hdecides, -⟩ := exists_decision_of_first h hfirst
      rw [hdecides.new (by simp [hpresence])] at hgone
      cases hgone
    · exact hdrop
  · have hne : ∀ element ∈ elements, element.presence ≠ .both →
        old.parent? element.id ≠ new.parent? element.id := fun element hmem hpresence heq =>
      hpresence ((htells.presence element hmem).2 heq)
    refine truthful_of_ofElements hnew h (fun element hmem hpresence => ?_)
      fun element hmem hpresence => ?_ <;>
      exact hne element hmem (by simp [hpresence])

/-- A plan that covers the differences still does after edits. -/
theorem Covers.edited (h : plan.Covers) (hold : plan.old.WellFormed) (hnew : plan.new.WellFormed)
    (hedited : Edited extra plan next) : next.Covers := by
  have hadvances := hedited.advances hnew
  refine ⟨fun hid hne hcolumns => ?_, fun {id} hid hgone hcolumns => ?_, ?_⟩ <;>
    rw [hadvances.old, hadvances.new] at *
  · obtain ⟨entry, hentry, hcreate⟩ := h.created hid hne hcolumns
    obtain ⟨later, hlater, -, rfl | ⟨halters, -⟩ | ⟨hcreated, -⟩⟩ := hadvances.entry hentry
    · exact ⟨later, hlater, hcreate⟩
    · rw [hcreate] at halters
      cases halters
    · exact hcreated
  · obtain ⟨entry, hentry, hdrop⟩ := h.dropped hid hgone hcolumns
    obtain ⟨later, hlater, -, rfl | ⟨halters, -⟩ | ⟨-, -, -, owner, hp, -⟩⟩ :=
      hadvances.entry hentry
    · exact ⟨later, hlater, hdrop⟩
    · rw [hdrop] at halters
      cases halters
    · rw [hadvances.new] at hp
      rw [Snapshot.contains_of_parent? hp] at hgone
      cases hgone
  · exact hedited.truthful hnew h.truthful
      (fun hgone hid => (parent?_ne_of_contains hnew hold hid hgone).symm)
      fun hid hgone => parent?_ne_of_contains hold hnew hid hgone

end SchemaMigration.Plan
