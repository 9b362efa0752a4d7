import SchemaMigration.Proofs.Migration.InPlace
import SchemaMigration.Proofs.Migration.Realisation

/-!
# Nothing is touched without a cause

Whatever a migration touches was selected, or a chain of causes leads to it from something that was
(`Migration.touched_for_cause`). The causes are those that edits have for the entries they add
(`Plan.Edit.contains_or_drawn`). Entries change their treatment later on, but never so that they
stop being a cause (`Plan.Advances.draws`), so the chains that led to an entry when it was added
are still there in the end.
-/

namespace SchemaMigration

namespace Plan

variable {plan next : Plan} {extra : List DependencyPair} {id cause : ObjectId}

/-- An object is the cause for touching another one: the other one depends on it or on what it owns,
and it changes in a way that reaches dependents; or the other one is a child of it, and it is
recreated. -/
def Draws (plan : Plan) (extra : List DependencyPair) (cause id : ObjectId) : Prop :=
  (∃ trigger, plan.Reaches cause trigger ∧ id ∈ plan.dependents extra cause) ∨
    plan.Recreates cause ∧ (plan.old.parent? id = some cause ∨ plan.new.parent? id = some cause)

/-- What an object that changes forces into a plan is drawn by it. -/
theorem Forces.exists_draws (h : plan.Forces extra id) : ∃ cause, plan.Draws extra cause id := by
  obtain ⟨changed, trigger, hreaches, hid, -⟩ := h
  exact ⟨changed, .inl ⟨trigger, hreaches, hid⟩⟩

/-- The children of a recreated object are drawn by it. -/
theorem OwnerRecreated.exists_draws (h : plan.OwnerRecreated id) :
    ∃ cause, plan.Draws extra cause id := by
  obtain ⟨owner, hp, hrecreates⟩ := h
  exact ⟨owner, .inr ⟨hrecreates, .inr hp⟩⟩

/-- A cause is touched itself. -/
theorem Draws.contains (h : plan.Draws extra cause id) : plan.contains cause = true := by
  rw [contains_iff]
  rcases h with ⟨_, ⟨entry, hentry, -⟩ | ⟨⟨entry, hentry, -⟩, -⟩, -⟩ | ⟨⟨entry, hentry, -⟩, -⟩ <;>
    exact ⟨entry, hentry⟩

/-- A cause still is one later on. -/
theorem Advances.draws (h : plan.Advances next) (hold : plan.old.WellFormed)
    (hnew : plan.new.WellFormed) (hdraws : plan.Draws extra cause id) :
    next.Draws extra cause id := by
  rcases hdraws with ⟨trigger, hreaches, hid⟩ | ⟨hrecreates, hp⟩
  · exact .inl ⟨trigger, h.reaches hnew hreaches, by rwa [h.dependents]⟩
  · have hnot := hp.elim hold.not_isSubElement_of_parent? hnew.not_isSubElement_of_parent?
    exact .inr ⟨h.recreates hnot hrecreates, by rwa [h.old, h.new]⟩

/-- An edit adds an entry only for what something in the plan draws. -/
theorem Edit.contains_or_drawn {change : Option Change} (h : Edit extra plan (next, change))
    (hid : next.contains id = true) :
    plan.contains id = true ∨ ∃ cause, plan.Draws extra cause id := by
  obtain ⟨entry, hentry⟩ := contains_iff.1 hid
  cases h with
  | keep => exact .inl hid
  | upgrade found | restore found =>
    rw [get?_reassign_of_get? found] at hentry
    split at hentry
    · next heq => exact .inl (contains_iff.2 ⟨_, heq ▸ found⟩)
    · exact .inl (contains_iff.2 ⟨_, hentry⟩)
  | drop absent existed gone cause =>
    rw [get?_derive absent] at hentry
    split at hentry
    · next heq =>
      rcases cause with ⟨-, hforces⟩ | ⟨-, owner, hp, hrecreates⟩
      · exact .inr (heq ▸ hforces.exists_draws)
      · exact .inr ⟨owner, .inr ⟨hrecreates, .inl (heq ▸ hp)⟩⟩
    · exact .inl (contains_iff.2 ⟨_, hentry⟩)
  | recreate absent existed stays cause =>
    rw [get?_derive absent] at hentry
    split at hentry
    · next heq =>
      exact .inr (heq ▸ cause.elim (·.2.exists_draws) (·.2.2.exists_draws))
    · exact .inl (contains_iff.2 ⟨_, hentry⟩)
  | create absent stays fresh cause =>
    rw [get?_derive absent] at hentry
    split at hentry
    · next heq => exact .inr (heq ▸ cause.exists_draws)
    · exact .inl (contains_iff.2 ⟨_, hentry⟩)
  | @refreshInPlace _ changed _ absent existed refreshed reached dependent =>
    rw [get?_derive absent] at hentry
    split at hentry
    · next heq => exact .inr ⟨changed, .inl ⟨_, reached, heq ▸ dependent⟩⟩
    · exact .inl (contains_iff.2 ⟨_, hentry⟩)

/-- Whatever edits put into a plan is led to by a chain of causes that starts in the plan before
them. -/
theorem Edited.exists_chain (h : Edited extra plan next) (hold : plan.old.WellFormed)
    (hnew : plan.new.WellFormed) (hid : next.contains id = true) :
    ∃ first, plan.contains first = true ∧ Relation.ReflTransGen (next.Draws extra) first id := by
  induction h generalizing id with
  | refl => exact ⟨id, hid, .refl⟩
  | @tail middle next change edited edit ih =>
    have hmiddle := edited.advances hnew
    have hadvances : middle.Advances next := edit.advances (hmiddle.new.symm ▸ hnew)
    have hdraws : ∀ {cause id}, middle.Draws extra cause id → next.Draws extra cause id :=
      hadvances.draws (hmiddle.old.symm ▸ hold) (hmiddle.new.symm ▸ hnew)
    have hlater : ∀ {id}, middle.contains id = true → ∃ first, plan.contains first = true ∧
        Relation.ReflTransGen (next.Draws extra) first id := fun hid => by
      obtain ⟨first, hfirst, hchain⟩ := ih hid
      exact ⟨first, hfirst, .mono (fun _ _ => hdraws) _ _ hchain⟩
    rcases edit.contains_or_drawn hid with hid | ⟨cause, hcause⟩
    · exact hlater hid
    · obtain ⟨first, hfirst, hchain⟩ := hlater hcause.contains
      exact ⟨first, hfirst, hchain.tail (hdraws hcause)⟩

/-- What is selected is one of the elements. -/
theorem exists_element_of_contains {old new : Snapshot} {elements : List Element}
    (h : ofElements old new elements = .ok plan) (hid : plan.contains id = true) :
    ∃ element ∈ elements, element.id = id := by
  have hall := foldlM_preserves (fun plan : Plan => ∀ entry ∈ plan.entries,
    ∃ element ∈ elements, element.id = entry.id) h (fun entry hentry => by cases hentry) ?_
  · obtain ⟨entry, hentry⟩ := contains_iff.1 hid
    obtain ⟨hmem, rfl⟩ := get?_some hentry
    exact hall entry hmem
  · rintro ⟨element, order⟩ hin plan next hplan hselect
    have hmem : element ∈ elements := (List.mem_zipIdx' hin).2 ▸ List.getElem_mem _
    rcases select_eq_ok hselect with ⟨rfl, -⟩ | ⟨-, decision, -, -, rfl⟩
    · exact hplan
    · intro entry hentry
      rcases List.mem_append.1 hentry with hentry | hentry
      · exact hplan entry hentry
      · rw [List.mem_singleton.1 hentry]
        exact ⟨element, hmem, rfl⟩

end Plan

namespace Migration

/-- An entry disturbs what depends on its object: the object goes away, for good or to come back,
alone or with its recreated owner; or it changes in place in a way that reaches dependents. -/
inductive Disturbs (m : Migration) (entry : PlanEntry) : Prop
  | dropped (drops : entry.treatment.drops = true)
  | returned (returns : m.Returns entry)
  | altered (treatment : entry.treatment = .alterWithDependents)
  | refreshed (treatment : entry.treatment = .alter) (origin : entry.origin = .refreshedInPlace)

/-- An entry of a migration is the cause for touching another object. -/
inductive Draws (m : Migration) (extra : List DependencyPair) (cause id : ObjectId) : Prop
  /-- The object needs the one of the entry, or something that it owns, and is disturbed by it. -/
  | dependent {entry : PlanEntry} {need : ObjectId} (mem : entry ∈ m.entries)
      (eq : entry.id = cause) (disturbs : m.Disturbs entry)
      (part : need = cause ∨ m.old.Owns cause need) (needs : m.old.Needs extra id need)
  /-- The object stands under the one of the entry, which is recreated. -/
  | child {entry : PlanEntry} (mem : entry ∈ m.entries) (eq : entry.id = cause)
      (recreated : entry.treatment = .recreate)
      (parent : m.old.parent? id = some cause ∨ m.new.parent? id = some cause)

section
variable {m : Migration} {old new : Snapshot} {elements : List Element} {extra : ExtraDependencies}
  {plan : Plan} {st : Staging} {planned : List Step} {id : ObjectId}
  (h : m.Derives old new elements extra plan st planned)
include h

/-- What changes in a way that reaches dependents disturbs them. -/
theorem Derives.exists_disturbs {trigger : Trigger} (hreaches : st.plan.Reaches id trigger) :
    ∃ entry ∈ m.entries, entry.id = id ∧ m.Disturbs entry := by
  have hfind : ∀ {id entry}, st.plan.get? id = some entry → entry ∈ m.entries ∧ entry.id = id :=
    fun hentry => ⟨h.runs.entries ▸ (Plan.get?_some hentry).1, (Plan.get?_some hentry).2⟩
  rcases hreaches with ⟨entry, hentry, hcases⟩ | ⟨⟨entry, hentry, hcreate⟩, hsub, hthere, owner,
    hparent, found, hfound, hrecreate⟩
  · obtain ⟨hmem, hid⟩ := hfind hentry
    refine ⟨entry, hmem, hid, ?_⟩
    rcases hcases with hdrops | htrigger
    · exact .dropped hdrops
    · cases htreatment : entry.treatment with
      | drop | recreate => exact .dropped (by rw [htreatment]; rfl)
      | alterWithDependents => exact .altered htreatment
      | alter =>
        refine .refreshed htreatment ?_
        simp only [PlanEntry.trigger?, htreatment, Treatment.trigger?, true_and, Option.none_or,
          Option.orElse_eq_orElse, Option.orElse_eq_or] at htrigger
        by_contra hne
        rw [if_neg hne] at htrigger
        cases htrigger
      | create | nothing => simp [PlanEntry.trigger?, htreatment, Treatment.trigger?] at htrigger
  · obtain ⟨hmem, rfl⟩ := hfind hentry
    obtain ⟨hownerMem, rfl⟩ := hfind hfound
    refine ⟨entry, hmem, rfl, .returned ⟨hcreate, hsub, ?_, found, hownerMem, ?_, hrecreate⟩⟩
    · rwa [h.migrationOld, ← h.planOld]
    · rwa [h.migrationNew, ← h.planNew]

/-- The causes of a plan are those of its migration. -/
theorem Derives.draws (hold : old.WellFormed) {cause : ObjectId}
    (hdraws : st.plan.Draws extra.old cause id) : m.Draws extra.old cause id := by
  rcases hdraws with ⟨trigger, hreaches, hid⟩ | ⟨⟨entry, hentry, hrecreate⟩, hp⟩
  · obtain ⟨entry, hmem, heq, hdisturbs⟩ := h.exists_disturbs hreaches
    obtain ⟨⟨need, hneed, hneeds⟩, -⟩ := (Plan.mem_dependents (h.planOld.symm ▸ hold)).1 hid
    rw [h.planOld, ← h.migrationOld] at hneed hneeds
    exact .dependent hmem heq hdisturbs hneed hneeds
  · obtain ⟨hmem, heq⟩ := Plan.get?_some hentry
    rw [h.planOld, h.planNew, ← h.migrationOld, ← h.migrationNew] at hp
    exact .child (h.runs.entries ▸ hmem) heq hrecreate hp

end

/-- **Nothing is touched without a cause.** Every entry of a migration that was not selected is led
to by a chain of causes from one of the selected elements; and every action is about an object that
has an entry, or about a detached constraint whose table has such an action too. -/
theorem touched_for_cause {m : Migration} {old new : Snapshot} {elements : List Element}
    {extra : ExtraDependencies} (hold : old.WellFormed) (hnew : new.WellFormed)
    (hm : ofElements old new elements extra = .ok m) :
    (∀ entry ∈ m.entries, entry.origin ≠ .selected →
      ∃ first ∈ m.entries, first.origin = .selected ∧
        (∃ element ∈ elements, element.id = first.id) ∧
        Relation.TransGen (m.Draws extra.old) first.id entry.id) ∧
      ∀ key ∈ m.keys, (∃ entry ∈ m.entries, entry.id = key.id) ∨ m.FollowsTable key := by
  obtain ⟨plan, st, planned, h⟩ := exists_derives hold hnew hm
  refine ⟨fun entry hentry horigin => ?_, fun key hkey => ?_⟩
  · have hfound := h.mem_entries.1 hentry
    obtain ⟨start, hstart, hchain⟩ := h.edited.exists_chain h.initial.old h.initial.new
      (Plan.contains_iff.2 ⟨entry, hfound⟩)
    obtain ⟨chosen, hchosen⟩ := Plan.contains_iff.1 hstart
    obtain ⟨first, hfirst, hkept, -⟩ := (h.edited.advances h.initial.new).entry hchosen
    obtain ⟨hmem, rfl⟩ := Plan.get?_some hfirst
    have hselected : first.origin = .selected :=
      hkept.trans (h.initial.selected chosen (Plan.get?_some hchosen).1)
    refine ⟨first, h.runs.entries ▸ hmem, hselected,
      Plan.exists_element_of_contains h.selected hstart, ?_⟩
    -- The chain is not empty, since its ends have different origins.
    rcases Relation.reflTransGen_iff_eq_or_transGen.1 hchain with heq | hchain
    · rw [heq] at hfound
      obtain rfl := Option.some.inj (hfirst.symm.trans hfound)
      exact absurd hselected horigin
    · exact .mono (fun _ _ => h.draws hold) _ _ hchain
  · refine (h.answers_or_followsTable hold hnew hkey).imp_left ?_
    rintro ⟨⟨entry, hentry, hid, -⟩, -⟩
    exact ⟨entry, hentry, hid⟩

/-! ### A view of a view of a table that is partitioned -/

namespace ViewOfView

/-- The table. -/
def table : ObjectId := .table "a" "t"

/-- The view of the table. -/
def view : ObjectId := ⟨.view, ["a", "v"]⟩

/-- The view of the view. -/
def outer : ObjectId := ⟨.view, ["a", "w"]⟩

/-- The schema with the table, which may be partitioned, and the views. -/
def snapshot (partitionBy : Option String) : Snapshot where
  dialect := .postgres
  statements :=
    [{ id := .database, parent := none, definition := .database, children := [⟨.schema, ["a"]⟩] },
     { id := ⟨.schema, ["a"]⟩, parent := some .database, definition := .schema {},
       children := [table, view, outer] },
     { id := table, parent := some ⟨.schema, ["a"]⟩, definition := .table { partitionBy } },
     { id := view, parent := some ⟨.schema, ["a"]⟩, definition := .view { query := "SELECT 1" },
       dependencies := [table] },
     { id := outer, parent := some ⟨.schema, ["a"]⟩, definition := .view { query := "SELECT 2" },
       dependencies := [view] }]
  fingerprints := []

/-- The outer view is recreated since the table is, which was selected. -/
theorem outer_touched : ∃ m, ofElements (snapshot none) (snapshot (some "RANGE (id)"))
      [⟨table, .both⟩] {} = .ok m ∧
    ∃ entry ∈ m.entries, entry.id = outer ∧ entry.origin = .refreshed ∧
      Relation.TransGen (m.Draws []) table outer := by
  obtain ⟨m, hm, htest⟩ := exists_ok_of_test (p := fun m : Migration =>
      decide (∃ entry ∈ m.entries, entry.id = outer ∧ entry.origin = .refreshed))
    (show
      (ofElements (snapshot none) (snapshot (some "RANGE (id)")) [⟨table, .both⟩] {}).toOption.any
      _ = true by decide +kernel)
  obtain ⟨entry, hentry, hid, horigin⟩ := of_decide_eq_true htest
  obtain ⟨first, -, -, ⟨element, helement, heq⟩, hchain⟩ :=
    (touched_for_cause (by decide +kernel) (by decide +kernel) hm).1 entry hentry
      (by rw [horigin]; decide)
  rw [List.mem_singleton.1 helement] at heq
  exact ⟨m, hm, entry, hentry, hid, horigin, by rwa [← heq, hid] at hchain⟩

end ViewOfView

end Migration

end SchemaMigration
