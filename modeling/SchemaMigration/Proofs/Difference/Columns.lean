import SchemaMigration.Proofs.Difference.Elements
import SchemaMigration.Proofs.Difference.Exactness

/-!
# Columns that differ

Fingerprints that are faithful to what objects say tell trees apart as well
(`Snapshot.PrintsFaithful.printsTell`). So the comparison of two snapshots reaches every table of
which they do not say the same, and a column of which they do not is among the elements to migrate
(`Difference.changed_mem_elements`).
-/

namespace SchemaMigration

namespace Snapshot

variable {old new snapshot : Snapshot} {id column : ObjectId}

/-- The columns of an object are those that say something of themselves there. -/
theorem WellFormed.mem_columnContents_iff (h : snapshot.WellFormed) {s : Statement}
    (hs : snapshot.get? column = some s) (hkind : column.kind = .column)
    {content : Definition × Option String × Option String} :
    (column, content) ∈ snapshot.columnContents id ↔
      snapshot.parent? column = some id ∧ s.content = content := by
  obtain ⟨hmem, rfl⟩ := get?_some hs
  rw [columnContents, List.mem_map]
  constructor
  · rintro ⟨t, ht, heq⟩
    obtain ⟨hid, rfl⟩ := Prod.mk.inj heq
    obtain ⟨htmem, hparent, -⟩ := h.mem_columns_iff.1 ht
    have hget := h.get?_of_mem htmem
    rw [hid, hs] at hget
    obtain rfl := Option.some.inj hget
    exact ⟨parent?_eq_some.2 ⟨s, hs, hparent⟩, rfl⟩
  · rintro ⟨hp, rfl⟩
    obtain ⟨t, ht, hparent⟩ := parent?_eq_some.1 hp
    obtain rfl := Option.some.inj (hs.symm.trans ht)
    exact ⟨s, h.mem_columns_iff.2 ⟨hmem, hparent, hkind⟩, rfl⟩

/-- Snapshots that say the same of an object have the same columns for it. -/
theorem SameElement.parent? (h : old.SameElement new id) (hold : old.WellFormed)
    (hnew : new.WellFormed) (hkind : column.kind = .column) (hp : old.parent? column = some id) :
    new.parent? column = some id := by
  obtain ⟨s, hs⟩ := contains_iff.1 (contains_of_parent? hp)
  have hin := (hold.mem_columnContents_iff hs hkind).2 ⟨hp, rfl⟩
  rw [h.2, columnContents, List.mem_map] at hin
  obtain ⟨t, ht, heq⟩ := hin
  obtain ⟨hmem, hparent, -⟩ := hnew.mem_columns_iff.1 ht
  rw [← (Prod.mk.inj heq).1]
  exact parent?_eq_some.2 ⟨t, hnew.get?_of_mem hmem, hparent⟩

/-- Snapshots that say the same of a table say the same of its columns. -/
theorem SameElement.content (h : old.SameElement new id) (hold : old.WellFormed)
    (hnew : new.WellFormed) (hkind : column.kind = .column) (hp : old.parent? column = some id)
    {s t : Statement} (hs : old.get? column = some s) (ht : new.get? column = some t) :
    s.content = t.content := by
  have hin := (hold.mem_columnContents_iff hs hkind).2 ⟨hp, rfl⟩
  rw [h.2, hnew.mem_columnContents_iff ht hkind] at hin
  exact hin.2.symm

/-- The snapshots may change places. -/
theorem SameElement.symm (h : old.SameElement new id) : new.SameElement old id :=
  ⟨h.1.symm, h.2.symm⟩

/-- The snapshots may change places. -/
theorem PrintsFaithful.symm (h : old.PrintsFaithful new) : new.PrintsFaithful old where
  element hid hid' heq := (h.element hid' hid heq.symm).symm
  tree hid hid' heq under hunder hkind := by
    obtain ⟨hthere, hthere', hsame⟩ := h.tree hid' hid heq.symm under (within_comm.1 hunder) hkind
    exact ⟨hthere', hthere, hsame.symm⟩

/-- What an object owns stands under the same parent in both snapshots if its tree has one digest.
-/
theorem PrintsFaithful.parent?_eq (h : old.PrintsFaithful new) (hold : old.WellFormed)
    (hnew : new.WellFormed) (hnewTables : new.TablesApart) {owner : ObjectId}
    (hthere : old.contains owner = true) (hthere' : new.contains owner = true)
    (hprint : (old.fingerprint owner).tree = (new.fingerprint owner).tree)
    (howns : old.Owns owner id) : old.parent? id = new.parent? id := by
  obtain ⟨parent, hp, hparent⟩ := exists_parent?_of_owns howns
  have hsub := hold.not_isSubElement_of_parent? hp
  obtain ⟨-, hparentNew, hsame⟩ := h.tree hthere hthere' hprint parent (hparent.imp_right .inl)
    fun hkind => by rw [hkind] at hsub; cases hsub
  rw [hp]
  by_cases hkind : id.kind = .column
  · exact (hsame.parent? hold hnew hkind hp).symm
  · have hid := (h.tree hthere hthere' hprint id (.inr (.inl howns)) hkind).2.1
    exact (hnewTables.parent?_of_parent? hnew hold hid hp hparentNew).symm

/-- Faithful fingerprints tell trees apart. -/
theorem PrintsFaithful.printsTell (h : old.PrintsFaithful new) (hold : old.WellFormed)
    (hnew : new.WellFormed) (holdTables : old.TablesApart) (hnewTables : new.TablesApart) :
    old.PrintsTell new where
  tree hid hid' heq := by
    rintro ⟨other, howns | howns, hne⟩
    · exact hne (h.parent?_eq hold hnew hnewTables hid hid' heq howns)
    · exact hne (h.symm.parent?_eq hnew hold holdTables hid' hid heq.symm howns).symm
  element hid hid' heq column hkind :=
    have hsame := h.element hid hid' heq
    ⟨hsame.parent? hold hnew hkind, hsame.symm.parent? hnew hold hkind⟩

/-- Fingerprints that differ for everything that is there afterwards are faithful. -/
theorem printsFaithful_of_ne (h : ∀ s ∈ new.statements,
    (old.fingerprint s.id).tree ≠ (new.fingerprint s.id).tree ∧
      (old.fingerprint s.id).element ≠ (new.fingerprint s.id).element) :
    old.PrintsFaithful new := by
  have hne : ∀ {id}, new.contains id = true →
      (old.fingerprint id).tree ≠ (new.fingerprint id).tree ∧
        (old.fingerprint id).element ≠ (new.fingerprint id).element := by
    intro id hid
    obtain ⟨s, hs, rfl⟩ := contains_iff_exists_mem.1 hid
    exact h s hs
  exact ⟨fun _ hid heq => absurd heq (hne hid).2, fun _ hid heq => absurd heq (hne hid).1⟩

end Snapshot

namespace Difference

variable {old new : Snapshot} {column : ObjectId} {tree : Difference}

/-- A column of which two snapshots do not say the same is among the elements to migrate. -/
theorem changed_mem_elements (hold : old.WellFormed) (hnew : new.WellFormed)
    (hprints : old.PrintsFaithful new) (h : ofSnapshots old new = .ok tree)
    (hkind : column.kind = .column) {s t : Statement} (hs : old.get? column = some s)
    (ht : new.get? column = some t) (hcontent : s.content ≠ t.content) :
    ⟨column, .both⟩ ∈ tree.elements old new {} := by
  have hne : column ≠ .database := by rintro rfl; cases hkind
  obtain ⟨table, hp⟩ := hold.exists_parent? (Snapshot.contains_iff.2 ⟨s, hs⟩) hne
  obtain ⟨table', hp'⟩ := hnew.exists_parent? (Snapshot.contains_iff.2 ⟨t, ht⟩) hne
  obtain rfl := hold.parent_eq_of_inline hnew (.inl hkind) hp hp'
  obtain ⟨hthere, hunder, -⟩ := hold.owner_of_parent? hp
  have htable : table.kind = .table := ObjectKind.eq_table_of_canBeUnder (.inl hkind) hunder
  have hdiffers : ¬ old.SameElement new table := fun hsame =>
    hcontent (hsame.content hold hnew hkind hp hs ht)
  obtain ⟨left, right, tree?, hleft, hright, hcompare, hselected⟩ :=
    exists_compare_of_ofSnapshots hold hnew h
  -- The digests of its table and of all owners differ, so the comparison gets there.
  have hshows : Shows old new (listing tree?) table := by
    refine compare_shows_of_prints hold hnew hcompare hleft hright (Nat.le_add_right _ _)
      (hnew.owns_database (hnew.owner_of_parent? hp').1) (hold.not_isSubElement_of_parent? hp)
      hthere
      fun owner hid hid' howner heq => hdiffers ?_
    exact (hprints.tree hid hid' heq table (howner.imp_right .inr) (by simp [htable])).2.2
  have hchanged := hshows.changed fun heq =>
    hdiffers (hprints.element hthere (hnew.owner_of_parent? hp').1 heq)
  refine List.mem_append_right _ (List.mem_flatMap.2 ⟨⟨table, .both⟩, List.mem_filter.2
    ⟨hselected ▸ hchanged, by simp [htable]⟩, List.mem_append_left _ (List.mem_filterMap.2 ?_)⟩)
  obtain ⟨hmem, rfl⟩ := Snapshot.get?_some ht
  obtain ⟨t', ht', hparent⟩ := Snapshot.parent?_eq_some.1 hp'
  obtain rfl := Option.some.inj (ht.symm.trans ht')
  refine ⟨t, hnew.mem_columns_iff.2 ⟨hmem, hparent, hkind⟩, ?_⟩
  rw [hs]
  exact if_neg fun hsame => hcontent (Statement.sameContent_iff.1 hsame)

end Difference

end SchemaMigration
