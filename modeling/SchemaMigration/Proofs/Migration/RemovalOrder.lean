import SchemaMigration.Proofs.Migration.Actions

/-!
# Removal order

What is removed is removed before everything that it needs. An object goes with its own drop, and a
column or a constraint without one with the drop of its table (`Migration.removal?`). The drop of a
table takes over what its columns and its constraints need, unless these are detached and have a
drop of their own, so the rule is the same for all of them (`Migration.removal_order`). Whether
cycles had to be broken makes no difference, since what is given up for that is never the order of
a drop.
-/

namespace SchemaMigration

namespace Migration

variable {m : Migration} {st : Staging} {planned : List Step} {id : ObjectId} {key : StepKey}

/-! ## Removing steps -/

/-- The action that removes an object: its own drop, or for a column or a constraint without one
the drop of the table that it stands under in the old snapshot. -/
def removal? (m : Migration) (id : ObjectId) : Option StepKey :=
  if ⟨.drop, id⟩ ∈ m.keys then some ⟨.drop, id⟩
  else if id.kind = .column ∨ id.kind = .constraint then
    ((m.old.parent? id).map (StepKey.mk .drop)).filter fun key => key ∈ m.keys
  else none

/-- The two cases of a removal: a drop of its own, or the drop of the table. -/
theorem removal?_eq_some (h : m.removal? id = some key) :
    (key = ⟨.drop, id⟩ ∧ key ∈ m.keys) ∨
      ⟨.drop, id⟩ ∉ m.keys ∧ (id.kind = .column ∨ id.kind = .constraint) ∧
        ∃ table, m.old.parent? id = some table ∧ key = ⟨.drop, table⟩ ∧ key ∈ m.keys := by
  unfold removal? at h
  split at h
  · next hin =>
    obtain rfl := Option.some.inj h
    exact .inl ⟨rfl, hin⟩
  · next hnot =>
    split at h
    · next hkind =>
      rw [Option.filter_eq_some_iff] at h
      obtain ⟨hkey, hin⟩ := h
      obtain ⟨table, htable, rfl⟩ := Option.map_eq_some_iff.1 hkey
      exact .inr ⟨hnot, hkind, table, htable, rfl, of_decide_eq_true hin⟩
    · cases h

/-- The removal of an object is a drop. -/
theorem drop_of_removal? (h : m.removal? id = some key) : key.kind = .drop ∧ key ∈ m.keys := by
  rcases removal?_eq_some h with ⟨rfl, hin⟩ | ⟨-, -, table, -, rfl, hin⟩ <;> exact ⟨rfl, hin⟩

section
variable (h : m.Runs st planned) (hold : st.plan.old.WellFormed)
include h hold

/-- The removal of an object is the step that the order of removals knows for it. -/
theorem Runs.remover?_of_removal? (hremoval : m.removal? id = some key) :
    st.remover? (st.allSteps planned) id = some key := by
  rcases removal?_eq_some hremoval with ⟨rfl, hin⟩ | ⟨hnot, hkind, table, hparent, rfl, hin⟩
  · simp [Staging.remover?, h.has_iff.2 hin]
  · rw [h.old] at hparent
    have htravels := h.travels_of_absent (.inr rfl) hold hnot hkind hparent hin
    have hsub := ObjectKind.isSubElement_of_inline hkind
    have hhas : Steps.has (st.allSteps planned) ⟨.drop, id⟩ = false := by
      rw [← Bool.not_eq_true, h.has_iff]
      exact hnot
    simp [Staging.remover?, hhas, hsub, htravels, hold.topLevel_of_parent? hsub hparent,
      h.has_iff.2 hin]

/-- The removal of an object takes over what the object needs. -/
theorem Runs.carried_of_removal? {s : Statement} {step : Step}
    (hremoval : m.removal? id = some step.key) (hs : st.plan.old.get? id = some s)
    (hstep : step ∈ st.allSteps planned) :
    ∃ constraint, (s, constraint) ∈
      st.carried step.statement (st.droppedChildren step.key.id) := by
  have hstatement := Staging.statement?_of_mem_allSteps h.steps hstep
  rcases removal?_eq_some hremoval with ⟨hkey, -⟩ | ⟨hnot, hkind, table, hparent, hkey, hin⟩
  · rw [hkey] at hstatement
    obtain rfl := Option.some.inj (hs.symm.trans hstatement)
    exact ⟨none, List.mem_cons_self⟩
  · rw [h.old] at hparent
    rw [hkey] at hin
    have htravels := h.travels_of_absent (.inr rfl) hold hnot hkind hparent hin
    have hsub := ObjectKind.isSubElement_of_inline hkind
    have hnotSub := hold.not_isSubElement_of_parent? hparent
    obtain ⟨t, ht, hsparent⟩ := Snapshot.parent?_eq_some.1 hparent
    obtain rfl := Option.some.inj (hs.symm.trans ht)
    obtain ⟨-, rfl⟩ := Snapshot.get?_some hs
    refine Staging.exists_mem_carried ?_ htravels
    rw [Staging.droppedChildren, hkey, if_neg (by simp [hnotSub])]
    exact List.mem_filter.2 ⟨hold.mem_children.2 ⟨hs, hsparent⟩, hsub⟩

end

/-! ## The order of removals -/

/-- Nothing that is no sub-element is both dropped and altered. -/
theorem Runs.not_altered_of_dropped (h : m.Runs st planned) (hplan : st.plan.Distinct)
    (hsub : id.kind.isSubElement = false) (hdrop : ⟨.drop, id⟩ ∈ m.keys) :
    ⟨.alter, id⟩ ∉ m.keys := by
  intro halter
  obtain ⟨entry, hentry, hid, hdrops⟩ := (Staging.key_mem_planned h.steps).1
    (h.mem_planned hsub hdrop)
  obtain ⟨other, hother, hid', halters⟩ := (Staging.key_mem_planned h.steps).1
    (h.mem_planned hsub halter)
  obtain rfl : entry = other :=
    List.inj_on_of_nodup_map hplan hentry hother (hid.trans hid'.symm)
  simp only [Staging.asks, Bool.and_eq_true] at hdrops halters
  cases htreatment : entry.treatment <;> simp [htreatment, Treatment.drops, Treatment.alters] at *

/-- **Removal order.** If an object that needs another one in the old snapshot, or by an extra pair
of its side, is removed, then this is before the removal of the other one and before the other one
is altered, unless both go with one step, or the other one is owned by what the step drops. An
object that needs itself by an extra pair is no exception for removals, which are one step then; for
alterations it is. -/
theorem removal_order {old new : Snapshot} {elements : List Element} {extra : ExtraDependencies}
    (hold : old.WellFormed) (hnew : new.WellFormed)
    (hm : ofElements old new elements extra = .ok m) {dependent need : ObjectId} {removal : StepKey}
    (hneeds : old.Needs extra.old dependent need) (hremoval : m.removal? dependent = some removal)
    (howned : ¬ old.Owns removal.id need) :
    (∀ other, m.removal? need = some other → other ≠ removal → m.RunsBefore removal other) ∧
      (need ≠ dependent → ⟨.alter, need⟩ ∈ m.keys → m.RunsBefore removal ⟨.alter, need⟩) := by
  obtain ⟨plan, st, planned, h⟩ := exists_derives hold hnew hm
  obtain rfl := h.planOld
  obtain ⟨hdrop, hkey⟩ := drop_of_removal? hremoval
  obtain ⟨step, hstep, rfl⟩ := List.mem_map.1 (h.runs.keys.mem_iff.1 hkey)
  -- The dependent is there, so its needs are those of its statement.
  obtain ⟨s, hs⟩ : ∃ s, st.plan.old.get? dependent = some s := by
    rcases removal?_eq_some hremoval with ⟨heq, -⟩ | ⟨-, -, table, hparent, -⟩
    · have := Staging.statement?_of_mem_allSteps h.runs.steps hstep
      rw [heq] at this
      exact ⟨_, this⟩
    · rw [h.runs.old] at hparent
      exact Snapshot.contains_iff.1 (Snapshot.contains_of_parent? hparent)
  have hneed : need ∈ st.oldNeeds s := by
    rw [Staging.oldNeeds, List.mem_append, h.stagedExtra, (Snapshot.get?_some hs).2]
    rcases hneeds with ⟨t, ht, hin⟩ | hpair
    · exact .inl (Option.some.inj (hs.symm.trans ht) ▸ hin)
    · exact .inr (List.mem_map.2 ⟨_, List.mem_filter.2 ⟨hpair, beq_self_eq_true dependent⟩, rfl⟩)
  obtain ⟨constraint, hcarried⟩ := h.runs.carried_of_removal? hold hremoval hs hstep
  have hforeign : st.plan.old.isDescendant need step.key.id = false := by
    rw [← Bool.not_eq_true, hold.isDescendant_iff]
    exact howned
  have hbefore : ∀ later, need ≠ step.key.id → later ∈ m.keys → later ≠ step.key →
      st.remover? (st.allSteps planned) need = some later ∨ later = ⟨.alter, need⟩ →
      m.RunsBefore step.key later := by
    intro later hne hlater hdiff hcases
    obtain ⟨reason, hprecedence⟩ := Staging.mem_removal_of_need hcarried hneed hne hforeign
      (hcases.imp_right fun heq => ⟨heq, h.runs.has_iff.2 hlater⟩) hdiff.symm
    exact h.runs.order _ (Staging.mem_precedences_of_removal hstep hdrop hprecedence) hkey hlater
  refine ⟨fun other hother hdiff => ?_, fun hne halter => ?_⟩
  · refine hbefore other (fun heq => hdiff ?_) (drop_of_removal? hother).2 hdiff
      (.inl (h.runs.remover?_of_removal? hold hother))
    -- The step drops `need` itself, so it is the removal of `need`.
    have hown : step.key = ⟨.drop, need⟩ := by rw [heq, ← hdrop]
    rw [hown] at hkey ⊢
    rw [removal?, if_pos hkey] at hother
    exact (Option.some.inj hother).symm
  · refine hbefore _ (fun heq => ?_) halter (fun heq => ?_) (.inr rfl)
    · rcases removal?_eq_some hremoval with ⟨hown, -⟩ | ⟨-, -, table, hparent, htable, hin⟩
      · exact hne (by rw [heq, hown])
      · rw [h.runs.old] at hparent
        have hsub := hold.not_isSubElement_of_parent? hparent
        rw [heq, htable] at halter
        exact h.runs.not_altered_of_dropped h.distinct hsub (htable ▸ hin) halter
    · rw [← heq] at hdrop
      cases hdrop

/-! ### Two tables that refer to each other -/

namespace MutualKeys

/-- A table of the schema `a`. -/
def table (name : String) : ObjectId := .table "a" name

/-- The key column of a table. -/
def column (name : String) : ObjectId := (table name).child .column "id"

/-- The foreign key of a table. -/
def foreignKey (name : String) : ObjectId := (table name).child .constraint "key"

/-- The statements of a table with a foreign key to another one. -/
def statementsOf (name other : String) (comment : Option String) : List Statement :=
  [{ id := table name, parent := some ⟨.schema, ["a"]⟩, definition := .table {},
     children := [column name, foreignKey name] },
   { id := column name, parent := some (table name), definition := .column { dataType := "int" } },
   { id := foreignKey name, parent := some (table name), comment
     definition := .constraint
       { type := .foreignKey, columns := ["id"],
         references := some ⟨"a", other, ["id"], none, none⟩ }
     dependencies := [column name, column other, table other] }]

/-- Two tables that refer to each other, the foreign key of the first one with a comment. -/
def snapshot (comment : Option String) : Snapshot where
  dialect := .postgres
  statements :=
    [{ id := .database, parent := none, definition := .database, children := [⟨.schema, ["a"]⟩] },
     { id := ⟨.schema, ["a"]⟩, parent := some .database, definition := .schema {},
       children := [table "s", table "t"] }] ++
      statementsOf "s" "t" comment ++ statementsOf "t" "s" none
  fingerprints := []

/-- Both tables are dropped. -/
def elements : List Element :=
  [⟨table "s", .onlyOld⟩, ⟨table "t", .onlyOld⟩, ⟨foreignKey "s", .both⟩]

/-- The first foreign key is said to need itself. -/
def extra : ExtraDependencies := { old := [⟨foreignKey "s", foreignKey "s"⟩] }

/-- Nothing is owned by a foreign key. -/
theorem not_owns (name : String) (id : ObjectId) : ¬ (snapshot none).Owns (foreignKey name) id := by
  have hold : (snapshot none).WellFormed := by decide +kernel
  intro howns
  have hdepth := hold.depth_lt_of_owns howns
  have := id.kind.depth_le
  have : (foreignKey name).kind.depth = 3 := rfl
  omega

/-- The foreign key of the first table is dropped before the second table, whose column it needs. -/
theorem foreignKey_removed_before_table :
    ∃ m, ofElements (snapshot none) (snapshot (some "c")) elements extra = .ok m ∧
      m.removal? (column "t") = some ⟨.drop, table "t"⟩ ∧
      m.RunsBefore ⟨.drop, foreignKey "s"⟩ ⟨.drop, table "t"⟩ := by
  obtain ⟨m, hm, htest⟩ := exists_ok_of_test (p := fun m : Migration =>
      decide (m.removal? (foreignKey "s") = some ⟨.drop, foreignKey "s"⟩ ∧
        m.removal? (column "t") = some ⟨.drop, table "t"⟩))
    (show (ofElements (snapshot none) (snapshot (some "c")) elements extra).toOption.any _ = true by
      decide +kernel)
  obtain ⟨hremoval, hcolumn⟩ := of_decide_eq_true htest
  have hneeds : (snapshot none).Needs extra.old (foreignKey "s") (column "t") :=
    .inl ⟨_, rfl, by decide⟩
  exact ⟨m, hm, hcolumn, (removal_order (by decide +kernel) (by decide +kernel) hm hneeds hremoval
    (not_owns "s" _)).1 _ hcolumn (by decide)⟩

/-- A foreign key that is said to need itself is altered before it is dropped: the rule for
alterations leaves out what needs itself. -/
theorem altered_before_own_removal :
    ∃ m, ofElements (snapshot none) (snapshot (some "c")) elements extra = .ok m ∧
      (snapshot none).Needs extra.old (foreignKey "s") (foreignKey "s") ∧
      m.removal? (foreignKey "s") = some ⟨.drop, foreignKey "s"⟩ ∧
      ¬ (snapshot none).Owns (foreignKey "s") (foreignKey "s") ∧
      ⟨.alter, foreignKey "s"⟩ ∈ m.keys ∧
      ¬ m.RunsBefore ⟨.drop, foreignKey "s"⟩ ⟨.alter, foreignKey "s"⟩ := by
  obtain ⟨m, hm, htest⟩ := exists_ok_of_test (p := fun m : Migration =>
      decide (m.removal? (foreignKey "s") = some ⟨.drop, foreignKey "s"⟩ ∧
        ⟨.alter, foreignKey "s"⟩ ∈ m.keys ∧
        ¬ m.RunsBefore ⟨.drop, foreignKey "s"⟩ ⟨.alter, foreignKey "s"⟩))
    (show (ofElements (snapshot none) (snapshot (some "c")) elements extra).toOption.any _ = true by
      decide +kernel)
  obtain ⟨hremoval, haltered, hbefore⟩ := of_decide_eq_true htest
  exact ⟨m, hm, .inr (by decide), hremoval, not_owns "s" _, haltered, hbefore⟩

end MutualKeys

end Migration

end SchemaMigration
