import SchemaMigration.Proofs.Migration.Cycles

/-!
# Creation order

What is brought to its new form is so after everything that it needs. An object is installed by its
own creation or else by its own alteration, and a column or a constraint without either by the
creation of its table (`Migration.installation?`). The creation of a table takes over what its
columns and its constraints need, unless these are detached and have a creation of their own, so the
rule is the same for all of them (`Migration.creation_order`). Only precedences through pass-through
steps are ever severed to break a cycle, and those lead from one installation to another one by way
of untouched objects, so the rule holds however many rounds it took.
-/

namespace SchemaMigration

namespace Migration

variable {m : Migration} {st : Staging} {planned : List Step} {id : ObjectId} {key : StepKey}

/-! ## Installing steps -/

/-- The action that brings an object to its new form: its own creation, or else its own alteration,
or for a column or a constraint without either the creation of the table that it stands under in the
new snapshot. -/
def installation? (m : Migration) (id : ObjectId) : Option StepKey :=
  if ⟨.create, id⟩ ∈ m.keys then some ⟨.create, id⟩
  else if ⟨.alter, id⟩ ∈ m.keys then some ⟨.alter, id⟩
  else if id.kind = .column ∨ id.kind = .constraint then
    ((m.new.parent? id).map (StepKey.mk .create)).filter fun key => key ∈ m.keys
  else none

/-- The cases of an installation: an action of its own, or the creation of the table. -/
theorem installation?_eq_some (h : m.installation? id = some key) : key ∈ m.keys ∧
    (key = ⟨.create, id⟩ ∨ key = ⟨.alter, id⟩ ∧ ⟨.create, id⟩ ∉ m.keys ∨
      ⟨.create, id⟩ ∉ m.keys ∧ ⟨.alter, id⟩ ∉ m.keys ∧
        (id.kind = .column ∨ id.kind = .constraint) ∧
        ∃ table, m.new.parent? id = some table ∧ key = ⟨.create, table⟩) := by
  unfold installation? at h
  split at h
  · next hin =>
    obtain rfl := Option.some.inj h
    exact ⟨hin, .inl rfl⟩
  · next hcreate =>
    split at h
    · next hin =>
      obtain rfl := Option.some.inj h
      exact ⟨hin, .inr (.inl ⟨rfl, hcreate⟩)⟩
    · next halter =>
      split at h
      · next hkind =>
        rw [Option.filter_eq_some_iff] at h
        obtain ⟨hkey, hin⟩ := h
        obtain ⟨table, htable, rfl⟩ := Option.map_eq_some_iff.1 hkey
        exact ⟨of_decide_eq_true hin, .inr (.inr ⟨hcreate, halter, hkind, table, htable, rfl⟩)⟩
      · cases h

section
variable (h : m.Runs st planned) (hnew : st.plan.new.WellFormed)
include h hnew

/-- The installation of an object is the step that the order of creations knows for it. -/
theorem Runs.installer?_of_installation? (hinstall : m.installation? id = some key) :
    ∃ reason, st.installer? (st.allSteps planned) id = some (key, reason) := by
  have hmem : ∀ {key}, key ∈ (st.allSteps planned).map (·.key) ↔ key ∈ m.keys :=
    h.keys.mem_iff.symm
  obtain ⟨hin, rfl | ⟨rfl, hcreate⟩ | ⟨hcreate, halter, hkind, table, hparent, rfl⟩⟩ :=
    installation?_eq_some hinstall
  · exact ⟨_, Staging.installer?_eq_some.2 (.inl ⟨rfl, rfl, hmem.2 hin⟩)⟩
  · exact ⟨_, Staging.installer?_eq_some.2
      (.inr (.inl ⟨rfl, rfl, fun hin => hcreate (hmem.1 hin), hmem.2 hin⟩))⟩
  · rw [h.new] at hparent
    have hsub := ObjectKind.isSubElement_of_inline hkind
    have htravels := h.travels_of_absent (.inl rfl) hnew hcreate hkind hparent hin
    refine ⟨_, Staging.installer?_eq_some.2 (.inr (.inr ⟨?_, rfl, fun hin => hcreate (hmem.1 hin),
      fun hin => halter (hmem.1 hin), hsub, htravels, hmem.2 hin⟩))⟩
    rw [hnew.topLevel_of_parent? hsub hparent]

omit hnew in
/-- What is installed is there afterwards. -/
theorem Runs.contains_of_installation? (hinstall : m.installation? id = some key) :
    st.plan.new.contains id = true := by
  obtain ⟨hin, hkey⟩ := installation?_eq_some hinstall
  obtain ⟨step, -, -, hs⟩ := h.exists_statement hin
  rcases hkey with rfl | ⟨rfl, -⟩ | ⟨-, -, -, table, hparent, -⟩
  · exact Snapshot.contains_iff.2 ⟨_, hs⟩
  · exact Snapshot.contains_iff.2 ⟨_, hs⟩
  · exact Snapshot.contains_of_parent? (h.new ▸ hparent)

/-- The installation of an object takes over what the object needs, and so does its own alteration
where it is created as well. -/
theorem Runs.carried_of_installation? {s : Statement} {step : Step}
    (hinstall : m.installation? id = some step.key ∨ step.key = ⟨.alter, id⟩)
    (hs : st.plan.new.get? id = some s) (hstep : step ∈ st.allSteps planned) :
    ∃ constraint, (s, constraint) ∈
      st.carried step.statement (st.createdChildren step.key) := by
  have hstatement := Staging.statement?_of_mem_allSteps h.steps hstep
  have hown : ∀ {kind : StepKind}, kind ≠ .drop → step.key = ⟨kind, id⟩ →
      ∃ constraint, (s, constraint) ∈ st.carried step.statement (st.createdChildren step.key) := by
    intro kind hkind hkey
    have hside : st.side kind = st.plan.new := by
      cases kind <;> first | rfl | exact absurd rfl hkind
    rw [hkey, Staging.statement?, hside, hs] at hstatement
    exact ⟨none, Option.some.inj hstatement ▸ List.mem_cons_self⟩
  rcases hinstall with hinstall | halter
  · obtain ⟨hin, hkey | ⟨hkey, -⟩ | ⟨hcreate, -, hkind, table, hparent, hkey⟩⟩ :=
      installation?_eq_some hinstall
    · exact hown (by simp) hkey
    · exact hown (by simp) hkey
    · rw [h.new] at hparent
      rw [hkey] at hin
      have htravels := h.travels_of_absent (.inl rfl) hnew hcreate hkind hparent hin
      obtain ⟨t, ht, hsparent⟩ := Snapshot.parent?_eq_some.1 hparent
      obtain rfl := Option.some.inj (hs.symm.trans ht)
      obtain ⟨-, rfl⟩ := Snapshot.get?_some hs
      refine Staging.exists_mem_carried ?_ htravels
      rw [Staging.createdChildren, hkey, if_pos rfl]
      exact hnew.mem_children.2 ⟨hs, hsparent⟩
  · exact hown (by simp) halter

end

/-! ## The order of creations -/

/-- What another object needs is installed before the step that installs this one, or that alters
it, unless the step is about the need or about what owns it. -/
theorem Derives.installed_before {old new : Snapshot} {elements : List Element}
    {extra : ExtraDependencies} {plan : Plan}
    (h : m.Derives old new elements extra plan st planned) (hnew : new.WellFormed)
    {dependent need : ObjectId} {earlier : StepKey} (hneeds : new.Needs extra.new dependent need)
    (hinstalled : m.installation? need = some earlier) {step : Step}
    (hstep : step ∈ st.allSteps planned)
    (hinstall : m.installation? dependent = some step.key ∨ step.key = ⟨.alter, dependent⟩)
    (hne : need ≠ step.key.id) (hdiff : earlier ≠ step.key)
    (howned : ¬ new.Owns step.key.id need) : m.RunsBefore earlier step.key := by
  obtain rfl := h.planNew
  have hearlier := (installation?_eq_some hinstalled).1
  have hkey : step.key ∈ m.keys := h.runs.keys.mem_iff.2 (List.mem_map_of_mem hstep)
  obtain ⟨reason, hinstaller⟩ := h.runs.installer?_of_installation? hnew hinstalled
  have hkind : step.key.kind = .create ∨ step.key.kind = .alter := by
    rcases hinstall with hinstall | halter
    · obtain ⟨-, hkey | ⟨hkey, -⟩ | ⟨-, -, -, _, -, hkey⟩⟩ := installation?_eq_some hinstall <;>
        simp [hkey]
    · simp [halter]
  -- The dependent is there, so its needs are those of its statement.
  obtain ⟨s, hs⟩ : ∃ s, st.plan.new.get? dependent = some s := by
    rcases hinstall with hinstall | halter
    · exact Snapshot.contains_iff.1 (h.runs.contains_of_installation? hinstall)
    · have hstatement := Staging.statement?_of_mem_allSteps h.runs.steps hstep
      rw [halter] at hstatement
      exact ⟨_, hstatement⟩
  have hneed : need ∈ st.newNeeds s := by
    rw [Staging.newNeeds, h.stagedExtra]
    exact Snapshot.mem_of_needs hs hneeds
  obtain ⟨constraint, hcarried⟩ := h.runs.carried_of_installation? hnew hinstall hs hstep
  have hbrings : st.Brings step constraint need := by
    refine ⟨hkind, ⟨s, hcarried, hneed⟩, hne, ?_⟩
    rw [← Bool.not_eq_true, hnew.isDescendant_iff]
    exact howned
  exact h.runs.order _ (Staging.mem_precedences_of_asked
    (.need hstep hbrings hinstaller hdiff)) hearlier hkey

/-- **Creation order.** If an object that needs another one in the new snapshot, or by an extra pair
of its side, is installed, then this is after the installation of the other one, unless both come
with one step, or the other one is owned by what the step installs. Where a constraint is both
created beside its table and altered, its alteration too is after the installation of whatever else
it needs. -/
theorem creation_order {old new : Snapshot} {elements : List Element} {extra : ExtraDependencies}
    (hold : old.WellFormed) (hnew : new.WellFormed)
    (hm : ofElements old new elements extra = .ok m) {dependent need : ObjectId}
    {earlier : StepKey} (hneeds : new.Needs extra.new dependent need)
    (hinstalled : m.installation? need = some earlier) :
    (∀ later, m.installation? dependent = some later → earlier ≠ later →
      ¬ new.Owns later.id need → m.RunsBefore earlier later) ∧
    (need ≠ dependent → ¬ new.Owns dependent need → ⟨.alter, dependent⟩ ∈ m.keys →
      m.RunsBefore earlier ⟨.alter, dependent⟩) := by
  obtain ⟨plan, st, planned, h⟩ := exists_derives hold hnew hm
  refine ⟨fun later hlater hdiff howned => ?_, fun hne howned halter => ?_⟩
  · obtain ⟨hin, hcases⟩ := installation?_eq_some hlater
    obtain ⟨step, hstep, rfl⟩ := List.mem_map.1 (h.runs.keys.mem_iff.1 hin)
    refine h.installed_before hnew hneeds hinstalled hstep (.inl hlater) (fun heq => hdiff ?_)
      hdiff howned
    -- The step installs `need` itself, so it is the installation of `need`.
    have hown : m.installation? need = some step.key := by
      rcases hcases with hkey | ⟨hkey, -⟩ | ⟨-, -, -, table, -, hkey⟩
      · rwa [show need = dependent by rw [heq, hkey]]
      · rwa [show need = dependent by rw [heq, hkey]]
      · have hcreate : step.key = ⟨.create, need⟩ := by rw [heq, hkey]
        rw [hcreate] at hin ⊢
        exact if_pos hin
    exact Option.some.inj (hinstalled.symm.trans hown)
  · obtain ⟨step, hstep, hkey⟩ := List.mem_map.1 (h.runs.keys.mem_iff.1 halter)
    have hdiff : earlier ≠ step.key := by
      rintro rfl
      obtain ⟨-, heq | ⟨heq, -⟩ | ⟨-, -, -, _, -, heq⟩⟩ := installation?_eq_some hinstalled <;>
        rw [hkey] at heq
      · cases heq
      · exact hne (StepKey.mk.inj heq).2.symm
      · cases heq
    rw [← hkey]
    exact h.installed_before hnew hneeds hinstalled hstep (.inr hkey) (by rwa [hkey]) hdiff
      (by rwa [hkey])

namespace MutualKeys

/-- The foreign key of the first table is created after the second table, whose column it needs. -/
theorem foreignKey_created_after_table :
    ∃ m, ofElements blank (snapshot none) created {} = .ok m ∧
      m.installation? (column "t") = some ⟨.create, table "t"⟩ ∧
      m.RunsBefore ⟨.create, table "t"⟩ ⟨.create, foreignKey "s"⟩ := by
  obtain ⟨m, hm, htest⟩ := exists_ok_of_test (p := fun m : Migration =>
      decide (m.installation? (foreignKey "s") = some ⟨.create, foreignKey "s"⟩ ∧
        m.installation? (column "t") = some ⟨.create, table "t"⟩))
    (show (ofElements blank (snapshot none) created {}).toOption.any _ = true by decide +kernel)
  obtain ⟨hkey, hcolumn⟩ := of_decide_eq_true htest
  have hneeds : (snapshot none).Needs [] (foreignKey "s") (column "t") := .inl ⟨_, rfl, by decide⟩
  exact ⟨m, hm, hcolumn, (creation_order (by decide +kernel) (by decide +kernel) hm hneeds
    hcolumn).1 _ hkey (by decide) (not_owns "s" _)⟩

end MutualKeys

end Migration

end SchemaMigration
