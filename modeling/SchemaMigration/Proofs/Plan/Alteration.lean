import SchemaMigration.Proofs.Plan.Selection

/-!
# What alters objects in place

The statements of an entry are those that its dialect alters the object with from the old statement
to the new one, or the one that refreshes it (`Plan.Founded`): selecting an element takes them from
the decision on it (`Plan.Decided`), and an edit brings in no others (`Plan.Edited.entry_cases`). So
the statements of a plan say nothing of any other objects than those that they are listed for.
-/

namespace SchemaMigration

namespace Plan

variable {plan next : Plan} {id : ObjectId}

/-! ## The entries of an edited plan -/

/-- An entry after an edit is one from before, or alters nothing in place, or refreshes its
object. -/
theorem Edit.entry_cases {extra : List DependencyPair} {result : Plan × Option Change}
    (h : Edit extra plan result) (hplan : plan.Grounded) {entry : PlanEntry}
    (hentry : result.1.get? id = some entry) :
    plan.get? id = some entry ∨
      (entry.treatment.alters = false ∧ entry.statements = [] ∧
        (entry.origin = .refreshedInPlace → plan.old.contains id = true)) ∨
      (entry.treatment = .alter ∧ entry.origin = .refreshedInPlace ∧
        plan.old.contains id = true ∧
        ∃ sql, plan.inPlace? .inPlace id = some sql ∧ entry.statements = [sql]) := by
  cases h with
  | keep => exact .inl hentry
  | @upgrade other found foundAt alters =>
    rw [get?_reassign_of_get? foundAt] at hentry
    split at hentry
    · next heq =>
      obtain rfl := Option.some.inj hentry
      obtain rfl := heq.trans (get?_some foundAt).2.symm
      refine .inr (.inl ⟨rfl, rfl, fun _ => (hplan _ found foundAt).old fun hcreate => ?_⟩)
      rw [hcreate] at alters
      cases alters
    · exact .inl hentry
  | restore found _ existed =>
    rw [get?_reassign_of_get? found] at hentry
    split at hentry
    · next heq =>
      obtain rfl := Option.some.inj hentry
      exact .inr (.inl ⟨rfl, rfl, fun _ => heq ▸ existed⟩)
    · exact .inl hentry
  | drop absent existed | recreate absent existed =>
    rw [get?_derive absent] at hentry
    split at hentry
    · next heq =>
      obtain rfl := Option.some.inj hentry
      exact .inr (.inl ⟨rfl, rfl, fun _ => heq ▸ existed⟩)
    · exact .inl hentry
  | create absent =>
    rw [get?_derive absent] at hentry
    split at hentry
    · obtain rfl := Option.some.inj hentry
      exact .inr (.inl ⟨rfl, rfl, fun horigin => by cases horigin⟩)
    · exact .inl hentry
  | refreshInPlace absent existed refreshed =>
    rw [get?_derive absent] at hentry
    split at hentry
    · next heq =>
      obtain rfl := Option.some.inj hentry
      exact .inr (.inr ⟨rfl, rfl, heq ▸ existed, _, heq ▸ refreshed, rfl⟩)
    · exact .inl hentry

/-- An entry of an edited plan is one from before, or alters nothing in place, or refreshes its
object, which was there before. -/
theorem Edited.entry_cases {extra : List DependencyPair} (h : Edited extra plan next)
    (hnew : plan.new.WellFormed) (hplan : plan.Grounded) {entry : PlanEntry}
    (hentry : next.get? id = some entry) :
    plan.get? id = some entry ∨
      (entry.treatment.alters = false ∧ entry.statements = [] ∧
        (entry.origin = .refreshedInPlace → plan.old.contains id = true)) ∨
      (entry.treatment = .alter ∧ entry.origin = .refreshedInPlace ∧
        plan.old.contains id = true ∧
        ∃ sql, plan.inPlace? .inPlace id = some sql ∧ entry.statements = [sql]) := by
  induction h with
  | refl => exact .inl hentry
  | @tail middle next change edited edit ih =>
    have hadvances := edited.advances hnew
    have hcases := edit.entry_cases (edited.grounded hplan) hentry
    rw [hadvances.old, hadvances.inPlace?] at hcases
    exact hcases.elim ih .inr

/-! ## Founded statements -/

/-- The statements of every entry alter its object or refresh it in place. -/
def Founded (plan : Plan) : Prop :=
  ∀ id entry, plan.get? id = some entry → ∀ sql ∈ entry.statements,
    AltersInPlace plan.old plan.new id sql ∨ plan.inPlace? .inPlace id = some sql

/-- A plan in which only the entry of one identity is another one is founded if that entry is. -/
theorem Founded.update {entry : PlanEntry} (hplan : plan.Founded) (hadvances : plan.Advances next)
    (hget : ∀ other, next.get? other = if other = id then some entry else plan.get? other)
    (hentry : ∀ sql ∈ entry.statements,
      AltersInPlace plan.old plan.new id sql ∨ plan.inPlace? .inPlace id = some sql) :
    next.Founded := by
  intro other found hfound sql hsql
  rw [hadvances.old, hadvances.new, hadvances.inPlace?]
  rw [hget] at hfound
  split at hfound
  · next heq =>
    obtain rfl := Option.some.inj hfound
    exact heq ▸ hentry sql hsql
  · exact hplan other found hfound sql hsql

/-- Selecting an element keeps a plan founded. -/
theorem Founded.select {element : Element} {order : Nat} (hplan : plan.Founded)
    (h : plan.select element order = .ok next) : next.Founded := by
  rcases select_eq_ok h with ⟨rfl, -⟩ | ⟨habsent, decision, hdecides, -, rfl⟩
  · exact hplan
  · exact hplan.update (.append habsent) (get?_append habsent)
      fun sql hsql => .inl (hdecides.statements sql hsql)

/-- The plan of elements is founded. -/
theorem founded_of_ofElements {old new : Snapshot} {elements : List Element}
    (h : ofElements old new elements = .ok plan) : plan.Founded := by
  have hempty : Founded ⟨old, new, []⟩ := fun _ _ hfind => by cases hfind
  exact foldlM_preserves Founded h hempty fun _ _ _ _ hplan hselect => hplan.select hselect

/-- Edits keep a plan founded. -/
theorem Edited.founded {extra : List DependencyPair} (h : Edited extra plan next)
    (hnew : plan.new.WellFormed) (hgrounded : plan.Grounded) (hplan : plan.Founded) :
    next.Founded := by
  have hadvances := h.advances hnew
  intro id entry hentry sql hsql
  rw [hadvances.old, hadvances.new, hadvances.inPlace?]
  rcases h.entry_cases hnew hgrounded hentry with
    hfound | ⟨-, hnone, -⟩ | ⟨-, -, -, statement, hrefreshed, hstatements⟩
  · exact hplan id entry hfound sql hsql
  · rw [hnone] at hsql
    cases hsql
  · rw [hstatements, List.mem_singleton] at hsql
    exact .inr (hsql ▸ hrefreshed)

/-! ## Decided alterations -/

/-- What alters an object in place is what its dialect does to bring the old statement to the new
one. -/
def Decided (plan : Plan) : Prop :=
  ∀ id entry, plan.get? id = some entry → entry.treatment.alters = true →
    ∃ s t alteration, plan.old.get? id = some s ∧ plan.new.get? id = some t ∧
      s.definition.kind = t.definition.kind ∧ plan.new.dialect.alter s t = .ok alteration ∧
      Decision.ofAlteration alteration = ⟨entry.treatment, entry.statements⟩

/-- Selecting an element keeps the alterations of a plan decided. -/
theorem Decided.select {element : Element} {order : Nat} (hplan : plan.Decided)
    (h : plan.select element order = .ok next) : next.Decided := by
  rcases select_spec h with
    ⟨-, rfl⟩ | ⟨habsent, before, after, decision, hstatements, hdecision, rfl⟩
  · exact hplan
  split
  · exact hplan
  intro id entry hentry halters
  rw [get?_append habsent] at hentry
  split at hentry
  · next heq =>
    obtain rfl := heq
    obtain rfl := Option.some.inj hentry
    rcases Dialect.decideOn_cases hdecision with
      ⟨hnot, -⟩ | ⟨s, t, alteration, hs, ht, hkind, halter, rfl⟩
    · rw [hnot] at halters
      cases halters
    · obtain ⟨hold, hnew⟩ := Element.get?_of_statements hstatements
      exact ⟨s, t, alteration, hold s hs, hnew t ht, hkind, halter, rfl⟩
  · exact hplan id entry hentry halters

/-- The alterations of the plan of some elements are decided. -/
theorem decided_of_ofElements {old new : Snapshot} {elements : List Element}
    (h : ofElements old new elements = .ok plan) : plan.Decided := by
  have hempty : Decided ⟨old, new, []⟩ := fun _ _ hfind => by cases hfind
  exact foldlM_preserves Decided h hempty fun _ _ _ _ hplan hselect => hplan.select hselect

end Plan

end SchemaMigration
