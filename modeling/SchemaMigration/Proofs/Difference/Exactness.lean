import SchemaMigration.Migration.Script
import SchemaMigration.Proofs.Difference.Comparison
import SchemaMigration.Proofs.Snapshot.Dependencies

/-!
# The differences are exact

If no object has moved to another parent, and fingerprints agree only where what they stand for does
(`Snapshot.PrintsFaithful`), then the differences of two snapshots list an object exactly if one of
the snapshots only holds it, or if its content or that of its columns differs; each object once, and
no object before one that owns it (`Difference.differences_exact`). What two snapshots own is one
tree then (`Snapshot.Together.trans`), so that the branches of a comparison share nothing
(`Snapshot.Together.branch_unique`).
-/

namespace SchemaMigration

/-- What a statement says apart from its place and its dependencies. -/
def Statement.content (s : Statement) : Definition × Option String × Option String :=
  (s.definition, s.owner, s.comment)

/-- Statements agree if they say the same. -/
theorem Statement.sameContent_iff {s t : Statement} :
    s.sameContent t = true ↔ s.content = t.content := by
  simp [sameContent, content, and_assoc]

namespace Snapshot

/-- The columns of an object in their order, with what they say. -/
def columnContents (snapshot : Snapshot) (id : ObjectId) :
    List (ObjectId × Definition × Option String × Option String) :=
  (snapshot.columns id).map fun column => (column.id, column.content)

/-- Two snapshots say the same of an object and have the same columns for it, in one order. -/
def SameElement (old new : Snapshot) (id : ObjectId) : Prop :=
  (old.get? id).map (·.content) = (new.get? id).map (·.content) ∧
    old.columnContents id = new.columnContents id

/-- Whether two snapshots say the same of an object can be computed. -/
instance (old new : Snapshot) (id : ObjectId) : Decidable (old.SameElement new id) :=
  inferInstanceAs (Decidable (_ ∧ _))

/-- An object is, or is owned by, another one in either of two snapshots. -/
def Within (old new : Snapshot) (owner id : ObjectId) : Prop :=
  id = owner ∨ old.Owns owner id ∨ new.Owns owner id

/-- The snapshots may change places. -/
theorem within_comm {old new : Snapshot} {owner id : ObjectId} :
    old.Within new owner id ↔ new.Within old owner id :=
  or_congr_right or_comm

/-- Fingerprints agree only where what they stand for does: the content of an object with its
columns, and that of all objects from an object on. -/
structure PrintsFaithful (old new : Snapshot) : Prop where
  element : ∀ {id}, old.contains id = true → new.contains id = true →
    (old.fingerprint id).element = (new.fingerprint id).element → old.SameElement new id
  tree : ∀ {id}, old.contains id = true → new.contains id = true →
    (old.fingerprint id).tree = (new.fingerprint id).tree →
      ∀ under, old.Within new id under → under.kind ≠ .column →
        old.contains under = true ∧ new.contains under = true ∧ old.SameElement new under

/-- Two well-formed snapshots in which nothing has moved to another parent. -/
structure Together (old new : Snapshot) : Prop where
  wfOld : old.WellFormed
  wfNew : new.WellFormed
  parents : ∀ id, old.contains id = true → new.contains id = true →
    old.parent? id = new.parent? id

variable {old new : Snapshot} {id owner : ObjectId}

/-! ## Two snapshots as one tree -/

namespace Together

/-- The snapshots may change places. -/
theorem symm (h : old.Together new) : new.Together old :=
  ⟨h.wfNew, h.wfOld, fun id hnew hold => (h.parents id hold hnew).symm⟩

/-- A parent is the same in both snapshots. -/
theorem parent? (h : old.Together new) (hp : old.parent? id = some owner)
    (hid : new.contains id = true) : new.parent? id = some owner :=
  h.parents id (contains_of_parent? hp) hid ▸ hp

/-- An owner is the same in both snapshots. -/
theorem owns (h : old.Together new) (howns : old.Owns owner id) (hid : new.contains id = true) :
    new.Owns owner id := by
  induction howns with
  | single hp => exact .single (h.parent? hp hid)
  | tail _ hp ih =>
    have hpnew := h.parent? hp hid
    exact .tail (ih (h.wfNew.owner_of_parent? hpnew).1) hpnew

variable (h : old.Together new)
include h

/-- What one snapshot owns of the other is owned there. -/
theorem owns_new (howns : old.Owns owner id ∨ new.Owns owner id) (hid : new.contains id = true) :
    new.Owns owner id :=
  howns.elim (h.owns · hid) fun howns => howns

/-- What one snapshot owns of the other is owned there. -/
theorem owns_old (howns : old.Owns owner id ∨ new.Owns owner id) (hid : old.contains id = true) :
    old.Owns owner id :=
  howns.elim (fun howns => howns) (h.symm.owns · hid)

/-- What is owned stands deeper than its owner, whichever snapshot owns it. -/
theorem depth_lt (howns : old.Owns owner id ∨ new.Owns owner id) :
    owner.kind.depth < id.kind.depth :=
  howns.elim h.wfOld.depth_lt_of_owns h.wfNew.depth_lt_of_owns

/-- What is within an object does not stand above it. -/
theorem depth_le (hid : old.Within new owner id) : owner.kind.depth ≤ id.kind.depth := by
  rcases hid with rfl | howns
  · exact Nat.le_refl _
  · exact Nat.le_of_lt (h.depth_lt howns)

/-- What is within an object within another one is within that one. -/
theorem trans {outer : ObjectId} (howner : old.Within new outer owner)
    (hid : old.Within new owner id) : old.Within new outer id := by
  rcases howner with rfl | howner
  · exact hid
  rcases hid with rfl | hid | hid
  · exact .inr howner
  · exact .inr (.inl (.trans (h.owns_old howner (h.wfOld.contains_owner hid)) hid))
  · exact .inr (.inr (.trans (h.owns_new howner (h.wfNew.contains_owner hid)) hid))

omit h in
/-- What is owned is within a child of the owner. -/
theorem exists_branch (howns : old.Owns owner id ∨ new.Owns owner id) :
    ∃ child, (old.parent? child = some owner ∨ new.parent? child = some owner) ∧
      old.Within new child id := by
  rcases howns with howns | howns
  · obtain ⟨child, hp, hid⟩ := exists_child_of_owns howns
    exact ⟨child, .inl hp, hid.imp_right .inl⟩
  · obtain ⟨child, hp, hid⟩ := exists_child_of_owns howns
    exact ⟨child, .inr hp, hid.imp_right .inr⟩

/-- Nothing is within a column but the column. -/
theorem ne_column (hid : old.Within new owner id) (hkind : id.kind ≠ .column) :
    owner.kind ≠ .column := by
  rcases hid with rfl | howns | howns
  · exact hkind
  · exact h.wfOld.ne_column_of_owns hkind (.inr howns)
  · exact h.wfNew.ne_column_of_owns hkind (.inr howns)

/-- An object is within one branch only: of what stands on one level, at most one thing is or owns
it. -/
theorem branch_unique {a b : ObjectId} (ha : old.Within new a id) (hb : old.Within new b id)
    (hdepth : a.kind.depth = b.kind.depth) : a = b := by
  rcases ha with rfl | ha
  · rcases hb with rfl | hb
    · rfl
    · have := h.depth_lt hb
      omega
  · rcases hb with rfl | hb
    · have := h.depth_lt ha
      omega
    · rcases ha with ha' | ha'
      · exact h.wfOld.branch_eq_of_depth (.inr ha')
          (.inr (h.owns_old hb (contains_of_owns ha'))) hdepth
      · exact h.wfNew.branch_eq_of_depth (.inr ha')
          (.inr (h.owns_new hb (contains_of_owns ha'))) hdepth

end Together

/-! ## Faithful fingerprints -/

/-- Fingerprints are faithful if that of an element tells what the object and its columns say, and
that of a tree tells the element and the trees of its branches. -/
theorem printsFaithful_of_branches (hold : old.WellFormed) (hnew : new.WellFormed)
    (helement : ∀ {id}, old.contains id = true → new.contains id = true →
      (old.fingerprint id).element = (new.fingerprint id).element → old.SameElement new id)
    (htree : ∀ {id}, old.contains id = true → new.contains id = true →
      (old.fingerprint id).tree = (new.fingerprint id).tree →
        (old.fingerprint id).element = (new.fingerprint id).element ∧
          ∀ branch, branch.kind ≠ .column →
            (old.parent? branch = some id ∨ new.parent? branch = some id) →
              old.contains branch = true ∧ new.contains branch = true ∧
                (old.fingerprint branch).tree = (new.fingerprint branch).tree) :
    old.PrintsFaithful new := by
  refine ⟨helement, ?_⟩
  intro id hs ht heq under hunder hkind
  -- Whatever is within the object stands deeper than it, and nothing stands deeper than columns.
  obtain ⟨levels, hlevels⟩ : ∃ levels, 4 ≤ levels + id.kind.depth := ⟨4, Nat.le_add_right _ _⟩
  induction levels generalizing id with
  | zero =>
    have := id.kind.depth_le
    omega
  | succ levels ih =>
    obtain ⟨hprint, hbranches⟩ := htree hs ht heq
    rcases hunder with rfl | howns
    · exact ⟨hs, ht, helement hs ht hprint⟩
    · obtain ⟨branch, hp, hwithin⟩ := Together.exists_branch howns
      have hnode : branch.kind ≠ .column := by
        rcases hwithin with rfl | howns | howns
        · exact hkind
        · exact hold.ne_column_of_owns hkind (.inr howns)
        · exact hnew.ne_column_of_owns hkind (.inr howns)
      have hdepth : branch.kind.depth = id.kind.depth + 1 := hp.elim
        (fun hp => ObjectKind.depth_of_canBeUnder (hold.owner_of_parent? hp).2.1)
        fun hp => ObjectKind.depth_of_canBeUnder (hnew.owner_of_parent? hp).2.1
      obtain ⟨hinOld, hinNew, hsame⟩ := hbranches branch hnode hp
      exact ih hinOld hinNew hsame hwithin (by omega)

/-- It is enough to compare the fingerprints of the statements. -/
theorem printsFaithful_of_statements (hold : old.WellFormed) (hnew : new.WellFormed)
    (h : ∀ s ∈ old.statements, new.contains s.id = true →
      ((old.fingerprint s.id).element = (new.fingerprint s.id).element →
        old.SameElement new s.id) ∧
      ((old.fingerprint s.id).tree = (new.fingerprint s.id).tree →
        (old.fingerprint s.id).element = (new.fingerprint s.id).element ∧
          ∀ t ∈ old.statements ++ new.statements, t.id.kind ≠ .column →
            (old.parent? t.id = some s.id ∨ new.parent? t.id = some s.id) →
              old.contains t.id = true ∧ new.contains t.id = true ∧
                (old.fingerprint t.id).tree = (new.fingerprint t.id).tree)) :
    old.PrintsFaithful new := by
  have hstatement : ∀ {id}, old.contains id = true → ∃ s ∈ old.statements, s.id = id :=
    contains_iff_exists_mem.1
  refine printsFaithful_of_branches hold hnew (fun hid hid' heq => ?_) fun hid hid' heq => ?_
  · obtain ⟨s, hs, rfl⟩ := hstatement hid
    exact (h s hs hid').1 heq
  · obtain ⟨s, hs, rfl⟩ := hstatement hid
    obtain ⟨helement, hbranches⟩ := (h s hs hid').2 heq
    refine ⟨helement, fun branch hkind hp => ?_⟩
    obtain ⟨t, ht, rfl⟩ : ∃ t ∈ old.statements ++ new.statements, t.id = branch := by
      rcases hp with hp | hp
      · obtain ⟨t, ht, hid⟩ := contains_iff_exists_mem.1 (contains_of_parent? hp)
        exact ⟨t, List.mem_append_left _ ht, hid⟩
      · obtain ⟨t, ht, hid⟩ := contains_iff_exists_mem.1 (contains_of_parent? hp)
        exact ⟨t, List.mem_append_right _ ht, hid⟩
    exact hbranches t ht hkind hp

/-! ## Digests of elements -/

/-- The own bytes of a statement follow from its kind and from what it says. -/
theorem ownBytes_congr {s t : Statement} (hkind : s.kind = t.kind)
    (hcontent : s.content = t.content) :
    Fingerprint.ownBytes s = Fingerprint.ownBytes t := by
  obtain ⟨hdefinition, howner, hcomment⟩ : s.definition = t.definition ∧ s.owner = t.owner ∧
      s.comment = t.comment := by simpa [Statement.content] using hcontent
  rw [Fingerprint.ownBytes, Fingerprint.ownBytes, hkind, hdefinition, howner, hcomment]

/-- Objects of which two snapshots say the same have one element digest. -/
theorem element_eq_of_sameElement (holdWf : old.WellFormed) (hnewWf : new.WellFormed)
    (hold : old.Printed) (hnew : new.Printed) (hidOld : old.contains id = true)
    (hidNew : new.contains id = true) (h : old.SameElement new id) :
    (old.fingerprint id).element = (new.fingerprint id).element := by
  obtain ⟨s, hs⟩ := contains_iff.1 hidOld
  obtain ⟨t, ht⟩ := contains_iff.1 hidNew
  have hcontent : s.content = t.content := by simpa [hs, ht] using h.1
  have hkind : s.kind = t.kind := by
    rw [Statement.kind, Statement.kind, (get?_some hs).2, (get?_some ht).2]
  -- A column is hashed by its name and by bytes that only its identity and its content make.
  have hcolumns : ∀ {snapshot : Snapshot}, snapshot.WellFormed → snapshot.Printed →
      snapshot.columnPrints id = (snapshot.columnContents id).map fun entry => (entry.1.name,
        Digest.sha256 (Fingerprint.ownBytes
          ⟨entry.1, none, entry.2.1, entry.2.2.1, entry.2.2.2, [], [], []⟩)) := by
    intro snapshot hwf hprinted
    rw [columnContents, List.map_map]
    refine List.map_congr_left fun column hcolumn => ?_
    rw [Function.comp_apply,
      hprinted.own_eq (hwf.mem_children.1 (List.mem_filter.1 hcolumn).1).1]
    exact congrArg (fun bytes => (column.id.name, Digest.sha256 bytes)) (ownBytes_congr rfl rfl)
  rw [hold.element_eq hs, hnew.element_eq ht, hold.own_eq hs, hnew.own_eq ht, hcolumns holdWf hold,
    hcolumns hnewWf hnew, h.2, ownBytes_congr hkind hcontent]

end Snapshot

/-- An element marks a difference: one of the snapshots only holds the object, or both do and do not
say the same of it. -/
def Element.Marks (old new : Snapshot) (element : Element) : Prop :=
  match element.presence with
  | .onlyOld => old.contains element.id = true ∧ new.contains element.id = false
  | .onlyNew => old.contains element.id = false ∧ new.contains element.id = true
  | .both => old.contains element.id = true ∧ new.contains element.id = true ∧
      ¬ old.SameElement new element.id

namespace Element

/-- Whether an element marks a difference can be computed. -/
instance (old new : Snapshot) : ∀ element : Element, Decidable (element.Marks old new)
  | ⟨_, .onlyOld⟩ => inferInstanceAs (Decidable (_ ∧ _))
  | ⟨_, .onlyNew⟩ => inferInstanceAs (Decidable (_ ∧ _))
  | ⟨_, .both⟩ => inferInstanceAs (Decidable (_ ∧ _ ∧ ¬ _))

variable {old new : Snapshot} {element : Element}

/-- An element of an object of the new snapshot only marks that. -/
theorem marks_iff_onlyNew (hold : old.contains element.id = false)
    (hnew : new.contains element.id = true) :
    element.Marks old new ↔ element.presence = .onlyNew := by
  cases hpresence : element.presence <;> simp [Marks, hpresence, hold, hnew]

/-- An element of an object of the old snapshot only marks that. -/
theorem marks_iff_onlyOld (hold : old.contains element.id = true)
    (hnew : new.contains element.id = false) :
    element.Marks old new ↔ element.presence = .onlyOld := by
  cases hpresence : element.presence <;> simp [Marks, hpresence, hold, hnew]

/-- An element of an object of both snapshots marks that these do not say the same of it. -/
theorem marks_iff_both (hold : old.contains element.id = true)
    (hnew : new.contains element.id = true) :
    element.Marks old new ↔ element.presence = .both ∧ ¬ old.SameElement new element.id := by
  cases hpresence : element.presence <;> simp [Marks, hpresence, hold, hnew]

/-- One of the snapshots holds what marks a difference. -/
theorem Marks.contains (h : element.Marks old new) :
    old.contains element.id = true ∨ new.contains element.id = true := by
  cases hpresence : element.presence <;> simp only [Marks, hpresence] at h
  · exact .inl h.1
  · exact .inr h.2
  · exact .inl h.1

end Element

namespace Difference

variable {old new : Snapshot} {element : Element} {id : ObjectId}

/-! ## What trees list -/

/-- What is on a branch that one of two snapshots only holds is in that one only. -/
theorem only_of_branch {a b : Snapshot} (h : a.Together b) {branch : ObjectId}
    (hthere : a.contains branch = true) (hfresh : b.contains branch = false)
    (hid : a.Within b branch id) : a.contains id = true ∧ b.contains id = false := by
  rcases hid with rfl | howns | howns
  · exact ⟨hthere, hfresh⟩
  · refine ⟨Snapshot.contains_of_owns howns, Bool.eq_false_iff.2 fun hin => ?_⟩
    rw [h.wfNew.contains_owner (h.owns howns hin)] at hfresh
    cases hfresh
  · rw [h.wfNew.contains_owner howns] at hfresh
    cases hfresh

/-- The tree of a branch that one of two snapshots only holds lists exactly what is on the branch,
columns aside. -/
theorem mem_oneSided_iff {a b : Snapshot} (h : a.Together b) {presence : Presence} {s : Statement}
    (hs : a.get? s.id = some s) (hfresh : b.contains s.id = false) (hkind : s.id.kind ≠ .column) :
    element ∈ selected {} (oneSided a presence a.size s) ↔
      a.Within b s.id element.id ∧ element.id.kind ≠ .column ∧ element.presence = presence := by
  have hcolumn : ∀ {depth : Nat} {s : Statement}, s.id.kind ≠ .column →
      element ∈ selected {} (oneSided a presence depth s) → element.id.kind ≠ .column := by
    intro depth
    induction depth with
    | zero =>
      intro s hs hmem
      rw [oneSided, selected_node] at hmem
      simp only [or_true, if_true, List.flatMap_nil, List.append_nil, List.mem_singleton] at hmem
      exact hmem ▸ hs
    | succ depth ih =>
      intro s hs hmem
      rw [oneSided, selected_node] at hmem
      simp only [or_true, if_true, List.mem_append, List.mem_singleton, List.mem_flatMap,
        List.mem_map, List.mem_filter] at hmem
      rcases hmem with rfl | ⟨_, ⟨child, ⟨-, hchild⟩, rfl⟩, hmem⟩
      · exact hs
      · exact ih (of_decide_eq_true hchild) hmem
  constructor
  · intro hmem
    obtain ⟨hpresence, hid⟩ := mem_oneSided h.wfOld hmem
    exact ⟨hid.imp_right .inl, hcolumn hkind hmem, hpresence⟩
  · rintro ⟨hid, hnode, rfl⟩
    have hin := (only_of_branch h (Snapshot.contains_iff.2 ⟨s, hs⟩) hfresh hid).1
    have hdepth : element.id.kind.depth < a.size := h.wfOld.depth_lt_length hin
    exact mem_oneSided_of_owns h.wfOld (hid.imp_right (h.owns_old · hin)) hnode (by omega)

section
variable (h : old.Together new)
include h

/-- What is gone with the children of an object of the old snapshot. -/
theorem mem_goneTrees_iff :
    element ∈ (goneTrees old new id).flatMap (selected {}) ↔
      ∃ branch, old.parent? branch = some id ∧ new.contains branch = false ∧
        old.Within new branch element.id ∧ element.id.kind ≠ .column ∧ element.Marks old new := by
  have htree : ∀ {child : Statement}, child ∈ old.children id → child.id.kind ≠ .column →
      new.contains child.id = false →
      (element ∈ selected {} (oneSided old .onlyOld old.size child) ↔
        old.Within new child.id element.id ∧ element.id.kind ≠ .column ∧
          element.Marks old new) := by
    intro child hchild hkind hgone
    have hget := (h.wfOld.mem_children.1 hchild).1
    rw [mem_oneSided_iff h hget hgone hkind]
    refine and_congr_right fun hwithin => and_congr_right fun _ => ?_
    obtain ⟨hin, hout⟩ := only_of_branch h (Snapshot.contains_iff.2 ⟨_, hget⟩) hgone hwithin
    exact (Element.marks_iff_onlyOld hin hout).symm
  simp only [goneTrees, List.mem_flatMap, List.mem_map, List.mem_filter, Bool.and_eq_true,
    decide_eq_true_eq, Bool.not_eq_true']
  constructor
  · rintro ⟨_, ⟨child, ⟨hchild, hkind, hgone⟩, rfl⟩, hmem⟩
    exact ⟨child.id, h.wfOld.exists_mem_children.1 ⟨child, hchild, rfl⟩, hgone,
      (htree hchild hkind hgone).1 hmem⟩
  · rintro ⟨branch, hp, hgone, hlisted⟩
    obtain ⟨child, hchild, rfl⟩ := h.wfOld.exists_mem_children.2 hp
    have hkind : child.id.kind ≠ .column := h.ne_column hlisted.1 hlisted.2.1
    exact ⟨_, ⟨child, ⟨hchild, hkind, hgone⟩, rfl⟩, (htree hchild hkind hgone).2 hlisted⟩

/-- What is listed for a child of the new snapshot is what differs on its branch, if that is what
the comparison of an object in both lists. -/
theorem mem_branch_iff {depth : Nat} {child : Statement} {found : Option Difference}
    (hbranch : branch old new depth child = .ok found) (hget : new.get? child.id = some child)
    (hkind : child.id.kind ≠ .column)
    (hcompare : ∀ previous, old.get? child.id = some previous →
      compare old new depth previous child = .ok found → (element ∈ listing found ↔
        old.Within new child.id element.id ∧ element.id.kind ≠ .column ∧
          element.Marks old new)) :
    element ∈ listing found ↔ old.Within new child.id element.id ∧ element.id.kind ≠ .column ∧
      element.Marks old new := by
  rw [branch] at hbranch
  split at hbranch
  · next previous hprevious => exact hcompare previous hprevious hbranch
  · next hnone =>
    obtain rfl := Except.ok.inj hbranch
    have hfresh := Snapshot.not_contains_iff.2 hnone
    refine (mem_oneSided_iff h.symm hget hfresh hkind).trans ?_
    rw [Snapshot.within_comm]
    refine and_congr_right fun hwithin => and_congr_right fun _ => ?_
    obtain ⟨hin, hout⟩ := only_of_branch h.symm (Snapshot.contains_iff.2 ⟨_, hget⟩) hfresh
      (Snapshot.within_comm.1 hwithin)
    exact (Element.marks_iff_onlyNew hout hin).symm

/-- What is listed for the children of an object of the new snapshot is what differs on their
branches. -/
theorem mem_branches_iff {depth : Nat} {branches : List (Option Difference)}
    (hbranches : List.Forall₂ (fun child found => branch old new depth child = .ok found)
      ((new.children id).filter (·.kind ≠ .column)) branches)
    (hbranch : ∀ {child found}, branch old new depth child = .ok found →
      new.get? child.id = some child → new.parent? child.id = some id → child.id.kind ≠ .column →
        (element ∈ listing found ↔ old.Within new child.id element.id ∧
          element.id.kind ≠ .column ∧ element.Marks old new)) :
    element ∈ branches.flatMap listing ↔ ∃ branch, new.parent? branch = some id ∧
      old.Within new branch element.id ∧ element.id.kind ≠ .column ∧ element.Marks old new := by
  have hchild : ∀ {child : Statement}, child ∈ (new.children id).filter (·.kind ≠ .column) ↔
      new.get? child.id = some child ∧ child.parent = some id ∧ child.id.kind ≠ .column := by
    intro child
    rw [List.mem_filter, h.wfNew.mem_children, decide_eq_true_eq, Statement.kind, and_assoc]
  rw [List.mem_flatMap]
  constructor
  · rintro ⟨found, hfound, hmem⟩
    obtain ⟨child, hin, hfound⟩ := (exists_of_forall₂ hbranches).2 found hfound
    obtain ⟨hget, hparent, hkind⟩ := hchild.1 hin
    have hp := Snapshot.parent?_eq_some.2 ⟨child, hget, hparent⟩
    exact ⟨child.id, hp, (hbranch hfound hget hp hkind).1 hmem⟩
  · rintro ⟨child, hp, hlisted⟩
    have hkind := h.ne_column hlisted.1 hlisted.2.1
    obtain ⟨s, hget, hparent⟩ := Snapshot.parent?_eq_some.1 hp
    obtain ⟨-, rfl⟩ := Snapshot.get?_some hget
    obtain ⟨found, hfound, hbranchOf⟩ :=
      (exists_of_forall₂ hbranches).1 s (hchild.2 ⟨hget, hparent, hkind⟩)
    exact ⟨found, hfound, (hbranch hbranchOf hget hp hkind).2 hlisted⟩

/-- An object in both snapshots is marked as changed exactly if they do not say the same of it. -/
theorem mem_changed_iff (hprints : old.PrintsFaithful new) (hprintedOld : old.Printed)
    (hprintedNew : new.Printed) (hidOld : old.contains id = true) (hidNew : new.contains id = true)
    (hid : id.kind ≠ .column) :
    element ∈ (if (old.fingerprint id).element ≠ (new.fingerprint id).element
        then [⟨id, .both⟩] else []) ↔
      element.id = id ∧ element.id.kind ≠ .column ∧ element.Marks old new := by
  obtain ⟨listed, presence⟩ := element
  constructor
  · intro hmem
    split at hmem
    · next hne =>
      obtain ⟨rfl, rfl⟩ := Element.mk.inj (List.mem_singleton.1 hmem)
      exact ⟨rfl, hid, hidOld, hidNew, fun hsame => hne
        (Snapshot.element_eq_of_sameElement h.wfOld h.wfNew hprintedOld hprintedNew hidOld hidNew
          hsame)⟩
    · cases hmem
  · rintro ⟨rfl, -, hmarks⟩
    obtain ⟨hpresence, hdiffers⟩ := (Element.marks_iff_both hidOld hidNew).1 hmarks
    rw [if_pos fun heq => hdiffers (hprints.element hidOld hidNew heq), List.mem_singleton]
    exact congrArg (Element.mk listed) hpresence

/-- A comparison lists exactly the differences from its object on, columns aside. -/
theorem mem_compare_iff (hprints : old.PrintsFaithful new) (hprintedOld : old.Printed)
    (hprintedNew : new.Printed) {depth : Nat} {left right : Statement} {tree? : Option Difference}
    (hcompare : compare old new depth left right = .ok tree?) (hleft : old.get? id = some left)
    (hright : new.get? id = some right) (hid : id.kind ≠ .column)
    (hdepth : new.size ≤ depth + id.kind.depth) :
    element ∈ listing tree? ↔
      old.Within new id element.id ∧ element.id.kind ≠ .column ∧ element.Marks old new := by
  induction depth generalizing id left right tree? with
  | zero =>
    have : id.kind.depth < new.size :=
      h.wfNew.depth_lt_length (Snapshot.contains_iff.2 ⟨right, hright⟩)
    omega
  | succ depth ih =>
    have hidOld : old.contains id = true := Snapshot.contains_iff.2 ⟨left, hleft⟩
    have hidNew : new.contains id = true := Snapshot.contains_iff.2 ⟨right, hright⟩
    have hleftId := (Snapshot.get?_some hleft).2
    have hrightId := (Snapshot.get?_some hright).2
    rcases compare_eq_ok hcompare with ⟨hsame, rfl⟩ | ⟨-, branches, hbranches, hlisting⟩
    · -- Nothing differs in trees that are passed over.
      refine ⟨fun hmem => (by cases hmem), fun ⟨hwithin, hkind, hmarks⟩ => ?_⟩
      rw [hleftId, hrightId] at hsame
      obtain ⟨hthereOld, hthereNew, hsame⟩ := hprints.tree hidOld hidNew hsame _ hwithin hkind
      exact absurd hsame ((Element.marks_iff_both hthereOld hthereNew).1 hmarks).2
    rw [hleftId, hrightId] at hlisting
    rw [hrightId] at hbranches
    rw [hlisting, List.mem_append, List.mem_append, mem_goneTrees_iff h,
      mem_changed_iff h hprints hprintedOld hprintedNew hidOld hidNew hid,
      mem_branches_iff h hbranches fun hfound hget hp hkind => mem_branch_iff h hfound hget hkind
        fun previous hprevious hfound => ih hfound hprevious hget hkind <| by
          have := ObjectKind.depth_of_canBeUnder (h.wfNew.owner_of_parent? hp).2.1
          omega]
    constructor
    · rintro (⟨heq, hlisted⟩ | ⟨child, hp, hwithin, hlisted⟩ | ⟨child, hp, -, hwithin, hlisted⟩)
      · exact ⟨.inl heq, hlisted⟩
      · exact ⟨h.trans (.inr (.inr (.single hp))) hwithin, hlisted⟩
      · exact ⟨h.trans (.inr (.inl (.single hp))) hwithin, hlisted⟩
    · rintro ⟨heq | howns, hlisted⟩
      · exact .inl ⟨heq, hlisted⟩
      · obtain ⟨child, hp, hwithin⟩ := Snapshot.Together.exists_branch howns
        by_cases hstays : new.contains child = true
        · exact .inr (.inl ⟨child, hp.elim (h.parent? · hstays) fun hp => hp, hwithin, hlisted⟩)
        · exact .inr (.inr ⟨child, hp.resolve_right fun hp =>
            hstays (Snapshot.contains_of_parent? hp), Bool.eq_false_iff.2 hstays, hwithin, hlisted⟩)

/-! ## The order of what trees list -/

/-- A list in which no object stands before one that it is within: no object is listed twice, and
none stands before its owners. -/
def OwnersFirst (old new : Snapshot) (elements : List Element) : Prop :=
  elements.Pairwise fun earlier later => ¬ old.Within new later.id earlier.id

omit h in
/-- A list of one element at most is in order. -/
theorem ownersFirst_of_length_le {own : List Element} (hown : own.length ≤ 1) :
    OwnersFirst old new own := by
  match own, hown with
  | [], _ => exact .nil
  | [_], _ => exact List.pairwise_singleton _ _

/-- The lists of different branches are in order one after the other if each of them is. -/
theorem ownersFirst_flatten {roots : List ObjectId} {parts : List (List Element)} {depth : Nat}
    (hparts : List.Forall₂ (fun root part => root.kind.depth = depth ∧
      (∀ element ∈ part, old.Within new root element.id) ∧ OwnersFirst old new part) roots parts)
    (hroots : roots.Nodup) : OwnersFirst old new parts.flatten := by
  induction hparts with
  | nil => exact .nil
  | @cons root part roots parts hpart hrest ih =>
    obtain ⟨hdepth, hwithin, hfirst⟩ := hpart
    obtain ⟨hroot, hroots⟩ := List.nodup_cons.1 hroots
    refine List.pairwise_append.2 ⟨hfirst, ih hroots, fun earlier hearlier later hlater hin => ?_⟩
    obtain ⟨other, hother, hlater⟩ := List.mem_flatten.1 hlater
    obtain ⟨otherRoot, hotherRoot, hotherDepth, hotherWithin, -⟩ :=
      (exists_of_forall₂ hrest).2 other hother
    have heq := h.branch_unique (hwithin earlier hearlier)
      (h.trans (hotherWithin later hlater) hin) (hdepth.trans hotherDepth.symm)
    exact hroot (heq ▸ hotherRoot)

/-- A node may stand before what is listed for its branches. -/
theorem ownersFirst_node {own : List Element} {parts : List (List Element)} (owner : ObjectId)
    (roots : List ObjectId) (hown : own.length ≤ 1) (hownId : ∀ element ∈ own, element.id = owner)
    (hparts : List.Forall₂ (fun root part => root.kind.depth = owner.kind.depth + 1 ∧
      (∀ element ∈ part, old.Within new root element.id) ∧ OwnersFirst old new part) roots parts)
    (hroots : roots.Nodup) : OwnersFirst old new (own ++ parts.flatten) := by
  refine List.pairwise_append.2 ⟨ownersFirst_of_length_le hown,
    ownersFirst_flatten h hparts hroots, fun node hnode later hlater hin => ?_⟩
  obtain ⟨part, hpart, hlater⟩ := List.mem_flatten.1 hlater
  obtain ⟨root, -, hdepth, hwithin, -⟩ := (exists_of_forall₂ hparts).2 part hpart
  have hnodeDepth := h.depth_le (h.trans (hwithin later hlater) hin)
  rw [hownId node hnode] at hnodeDepth
  omega

/-- The tree of one side is listed in order. -/
theorem ownersFirst_oneSided {presence : Presence} {depth : Nat} {s : Statement} :
    OwnersFirst old new (selected {} (oneSided old presence depth s)) := by
  induction depth generalizing s with
  | zero =>
    rw [oneSided, selected_node]
    exact ownersFirst_of_length_le (by simp)
  | succ depth ih =>
    rw [oneSided, selected_node, List.flatMap_map, List.flatMap_def]
    refine ownersFirst_node h s.id (((old.children s.id).filter (·.kind ≠ .column)).map (·.id))
      (by simp) (by simp) ?_ ?_
    · rw [List.forall₂_map_left_iff, List.forall₂_map_right_iff, List.forall₂_same]
      intro child hchild
      have hp := h.wfOld.exists_mem_children.1 ⟨child, (List.mem_filter.1 hchild).1, rfl⟩
      exact ⟨ObjectKind.depth_of_canBeUnder (h.wfOld.owner_of_parent? hp).2.1,
        fun element hmem => (mem_oneSided h.wfOld hmem).2.imp_right .inl, ih⟩
    · exact (h.wfOld.nodup_children s.id).sublist (List.filter_sublist.map _)

/-- A comparison lists its differences in order. -/
theorem ownersFirst_compare (hprints : old.PrintsFaithful new) (hprintedOld : old.Printed)
    (hprintedNew : new.Printed) {depth : Nat} {left right : Statement} {tree? : Option Difference}
    (hcompare : compare old new depth left right = .ok tree?) (hleft : old.get? id = some left)
    (hright : new.get? id = some right) (hdepth : new.size ≤ depth + id.kind.depth) :
    OwnersFirst old new (listing tree?) := by
  induction depth generalizing id left right tree? with
  | zero =>
    obtain rfl := Except.ok.inj hcompare
    exact .nil
  | succ depth ih =>
    obtain ⟨-, rfl⟩ := Snapshot.get?_some hright
    have hidEq := (Snapshot.get?_some hleft).2
    rcases compare_eq_ok hcompare with ⟨-, rfl⟩ | ⟨-, branches, hbranches, hlisting⟩
    · exact .nil
    rw [hlisting, hidEq, goneTrees, List.flatMap_map, List.flatMap_def, List.flatMap_def,
      ← List.flatten_append]
    refine ownersFirst_node h right.id
      (((new.children right.id).filter (·.kind ≠ .column)).map (·.id) ++
        ((old.children right.id).filter fun child =>
          child.kind ≠ .column && !new.contains child.id).map (·.id))
      (by split <;> simp) (by split <;> simp) (List.rel_append ?_ ?_) ?_
    · rw [List.forall₂_map_left_iff, List.forall₂_map_right_iff]
      refine ((List.forall₂_and_left _ _).2 ⟨fun _ hin => hin, hbranches⟩).imp ?_
      rintro child found ⟨hin, hfound⟩
      obtain ⟨hin, hkind⟩ := List.mem_filter.1 hin
      have hget := (h.wfNew.mem_children.1 hin).1
      have hp := h.wfNew.exists_mem_children.1 ⟨child, hin, rfl⟩
      have hdeeper := ObjectKind.depth_of_canBeUnder (h.wfNew.owner_of_parent? hp).2.1
      refine ⟨hdeeper, fun element hmem => ?_, ?_⟩
      · exact ((mem_branch_iff h hfound hget (of_decide_eq_true hkind) fun _ hprevious hfound =>
          mem_compare_iff h hprints hprintedOld hprintedNew hfound hprevious hget
            (of_decide_eq_true hkind) (by omega)).1 hmem).1
      · rw [branch] at hfound
        split at hfound
        · next previous hprevious => exact ih hfound hprevious hget (by omega)
        · obtain rfl := Except.ok.inj hfound
          exact (ownersFirst_oneSided h.symm).imp fun hnot hin => hnot (Snapshot.within_comm.1 hin)
    · rw [List.forall₂_map_left_iff, List.forall₂_map_right_iff, List.forall₂_same]
      intro child hchild
      have hp := h.wfOld.exists_mem_children.1 ⟨child, (List.mem_filter.1 hchild).1, rfl⟩
      exact ⟨ObjectKind.depth_of_canBeUnder (h.wfOld.owner_of_parent? hp).2.1,
        fun element hmem => (mem_oneSided h.wfOld hmem).2.imp_right .inl, ownersFirst_oneSided h⟩
    · refine ((h.wfNew.nodup_children _).sublist (List.filter_sublist.map _)).append
        ((h.wfOld.nodup_children _).sublist (List.filter_sublist.map _)) fun root hnew hgone => ?_
      obtain ⟨child, hchild, rfl⟩ := List.mem_map.1 hnew
      obtain ⟨gone, hgone, heq⟩ := List.mem_map.1 hgone
      have hnot := (List.mem_filter.1 hgone).2
      have hget := (h.wfNew.mem_children.1 (List.mem_filter.1 hchild).1).1
      rw [heq, Snapshot.contains_iff.2 ⟨child, hget⟩] at hnot
      simp at hnot

/-! ## Columns -/

omit h in
/-- Two snapshots say the same of a column if its statements do, since it has no columns. -/
theorem sameElement_column_iff (hold : old.WellFormed) (hnew : new.WellFormed)
    (hkind : id.kind = .column) {s t : Statement} (hs : old.get? id = some s)
    (ht : new.get? id = some t) : old.SameElement new id ↔ s.content = t.content := by
  have hnone : ∀ {snapshot : Snapshot}, snapshot.WellFormed → snapshot.columnContents id = [] := by
    intro snapshot hwf
    rw [Snapshot.columnContents, List.map_eq_nil_iff, List.eq_nil_iff_forall_not_mem]
    intro column hcolumn
    exact hwf.parent?_ne_of_isSubElement (by rw [hkind]; rfl)
      (hwf.exists_mem_children.1 ⟨column, (List.mem_filter.1 hcolumn).1, rfl⟩)
  simp [Snapshot.SameElement, hs, ht, hnone hold, hnone hnew]

/-- The changes of columns are exactly the differences of the columns that a table has in either
snapshot. -/
theorem mem_columnChanges_iff {table : ObjectId} :
    element ∈ columnChanges old new table ↔ element.id.kind = .column ∧
      (old.parent? element.id = some table ∨ new.parent? element.id = some table) ∧
        element.Marks old new := by
  have hcolumns : ∀ {snapshot : Snapshot} {s : Statement}, snapshot.WellFormed →
      (s ∈ snapshot.columns table ↔
        snapshot.get? s.id = some s ∧ s.parent = some table ∧ s.id.kind = .column) := by
    intro snapshot s hwf
    rw [Snapshot.columns, Statements.columns, List.mem_filter, decide_eq_true_eq, and_assoc.symm]
    exact and_congr_left fun _ => hwf.mem_children
  rw [columnChanges, List.mem_append, List.mem_filterMap, List.mem_map]
  constructor
  · rintro (⟨column, hcolumn, hmem⟩ | ⟨column, hcolumn, rfl⟩)
    · obtain ⟨hget, hparent, hkind⟩ := (hcolumns h.wfNew).1 hcolumn
      have hp := Snapshot.parent?_eq_some.2 ⟨column, hget, hparent⟩
      have hin := Snapshot.contains_of_parent? hp
      split at hmem
      · next hnone =>
        obtain rfl := Option.some.inj hmem
        exact ⟨hkind, .inr hp, (Element.marks_iff_onlyNew (Snapshot.not_contains_iff.2 hnone)
          hin).2 rfl⟩
      · next previous hprevious =>
        split at hmem
        · cases hmem
        · next hdiffers =>
          obtain rfl := Option.some.inj hmem
          refine ⟨hkind, .inr hp, (Element.marks_iff_both (Snapshot.contains_iff.2 ⟨_, hprevious⟩)
            hin).2 ⟨rfl, fun hsame => hdiffers ?_⟩⟩
          exact Statement.sameContent_iff.2
            ((sameElement_column_iff h.wfOld h.wfNew hkind hprevious hget).1 hsame)
    · obtain ⟨hcolumn, hgone⟩ := List.mem_filter.1 hcolumn
      obtain ⟨hget, hparent, hkind⟩ := (hcolumns h.wfOld).1 hcolumn
      have hp := Snapshot.parent?_eq_some.2 ⟨column, hget, hparent⟩
      exact ⟨hkind, .inl hp, (Element.marks_iff_onlyOld (Snapshot.contains_of_parent? hp)
        (by simpa using hgone)).2 rfl⟩
  · obtain ⟨id, presence⟩ := element
    rintro ⟨hkind, hp, hmarks⟩
    dsimp only at hkind hp hmarks ⊢
    by_cases hstays : new.contains id = true
    · left
      have hp : new.parent? id = some table := hp.elim (h.parent? · hstays) fun hp => hp
      obtain ⟨column, hget, hparent⟩ := Snapshot.parent?_eq_some.1 hp
      obtain ⟨-, rfl⟩ := Snapshot.get?_some hget
      refine ⟨column, (hcolumns h.wfNew).2 ⟨hget, hparent, hkind⟩, ?_⟩
      cases hprevious : old.get? column.id with
      | none =>
        have := (Element.marks_iff_onlyNew (Snapshot.not_contains_iff.2 hprevious) hstays).1 hmarks
        dsimp only at this ⊢
        rw [this]
      | some previous =>
        obtain ⟨hpresence, hdiffers⟩ := (Element.marks_iff_both
          (Snapshot.contains_iff.2 ⟨previous, hprevious⟩) hstays).1 hmarks
        dsimp only at hpresence hdiffers ⊢
        rw [if_neg, hpresence]
        exact fun hsame => hdiffers ((sameElement_column_iff h.wfOld h.wfNew hkind hprevious hget).2
          (Statement.sameContent_iff.1 hsame))
    · right
      have hp := hp.resolve_right fun hp => hstays (Snapshot.contains_of_parent? hp)
      obtain ⟨column, hget, hparent⟩ := Snapshot.parent?_eq_some.1 hp
      obtain ⟨-, rfl⟩ := Snapshot.get?_some hget
      have hpresence := (Element.marks_iff_onlyOld (Snapshot.contains_of_parent? hp)
        (Bool.eq_false_iff.2 hstays)).1 hmarks
      refine ⟨column, List.mem_filter.2 ⟨(hcolumns h.wfOld).2 ⟨hget, hparent, hkind⟩, ?_⟩, ?_⟩
      · simpa using hstays
      · exact congrArg (Element.mk column.id) hpresence.symm

omit h in
/-- What has changed of a column of the new snapshot is told of this column. -/
theorem id_of_columnChange {column : Statement} (hchange : (match old.get? column.id with
    | none => some ⟨column.id, .onlyNew⟩
    | some previous => if previous.sameContent column then none
      else some ⟨column.id, .both⟩) = some element) : element.id = column.id := by
  split at hchange
  · rw [← Option.some.inj hchange]
  · split at hchange
    · cases hchange
    · rw [← Option.some.inj hchange]

/-- The changes of the columns of a table are of different columns. -/
theorem pairwise_columnChanges (table : ObjectId) :
    (columnChanges old new table).Pairwise fun a b => a.id ≠ b.id := by
  have hcolumns : ∀ {snapshot : Snapshot}, snapshot.WellFormed →
      (snapshot.columns table).Pairwise fun a b => a.id ≠ b.id := fun hwf =>
    List.pairwise_map.1 ((hwf.nodup_children table).sublist (List.filter_sublist.map _))
  refine List.pairwise_append.2 ⟨List.pairwise_filterMap.2 ((hcolumns h.wfNew).imp ?_),
    List.pairwise_map.2 ((hcolumns h.wfOld).filter _), fun x hx y hy heq => ?_⟩
  · intro a b hne x hx y hy
    rwa [id_of_columnChange hx, id_of_columnChange hy]
  · -- The first columns are in the new snapshot, the others are gone.
    obtain ⟨column, hcolumn, hmem⟩ := List.mem_filterMap.1 hx
    obtain ⟨gone, hgone, rfl⟩ := List.mem_map.1 hy
    have hget := (h.wfNew.mem_children.1 (List.mem_filter.1 hcolumn).1).1
    have hsame : gone.id = column.id := heq.symm.trans (id_of_columnChange hmem)
    have hnot := (List.mem_filter.1 hgone).2
    rw [hsame, Snapshot.contains_iff.2 ⟨column, hget⟩] at hnot
    cases hnot

/-- The changes of the columns of different tables are of different columns. -/
theorem distinct_columnChanges {tables : List Element}
    (htables : tables.Pairwise fun a b => a.id ≠ b.id) :
    (tables.flatMap fun element => columnChanges old new element.id).Pairwise
      fun a b => a.id ≠ b.id := by
  refine List.pairwise_flatMap.2 ⟨fun table _ => pairwise_columnChanges h table.id,
    htables.imp fun {a b} hne x hx y hy heq => hne ?_⟩
  obtain ⟨-, hx, -⟩ := (mem_columnChanges_iff h).1 hx
  obtain ⟨-, hy, -⟩ := (mem_columnChanges_iff h).1 hy
  rw [← heq] at hy
  rcases hx with hx | hx <;> rcases hy with hy | hy
  · exact Option.some.inj (hx.symm.trans hy)
  · exact Option.some.inj ((h.parent? hx (Snapshot.contains_of_parent? hy)).symm.trans hy)
  · exact Option.some.inj (hx.symm.trans (h.parent? hy (Snapshot.contains_of_parent? hx)))
  · exact Option.some.inj (hx.symm.trans hy)

/-! ## All elements -/

omit h in
/-- Some elements are exactly the differences of two snapshots. -/
structure Exact (old new : Snapshot) (elements : List Element) : Prop where
  /-- No object is listed twice. -/
  distinct : (elements.map (·.id)).Nodup
  /-- What is no column is listed exactly if it differs. -/
  object : ∀ element : Element, element.id.kind ≠ .column →
    (element ∈ elements ↔ element.Marks old new)
  /-- A column is listed exactly if it differs and its table is listed as being in both. -/
  column : ∀ element : Element, element.id.kind = .column →
    (element ∈ elements ↔ element.Marks old new ∧ ∃ table,
      (old.parent? element.id = some table ∨ new.parent? element.id = some table) ∧
        ⟨table, .both⟩ ∈ elements)
  /-- Nothing but a column stands before its owners. -/
  ownersFirst : elements.Pairwise fun earlier later => earlier.id.kind ≠ .column →
    ¬ (old.Owns later.id earlier.id ∨ new.Owns later.id earlier.id)

/-- The elements of a tree that lists the differences in order are exactly the differences. -/
theorem exact_elements {tree : Difference}
    (hselected : ∀ element, element ∈ tree.selected {} ↔
      element.id.kind ≠ .column ∧ element.Marks old new)
    (hfirst : OwnersFirst old new (tree.selected {})) :
    Exact old new (tree.elements old new {}) := by
  have htable : ∀ {table : ObjectId} {column : ObjectId}, column.kind = .column →
      (old.parent? column = some table ∨ new.parent? column = some table) → table.kind = .table :=
    fun hkind hp => ObjectKind.eq_table_of_canBeUnder (.inl hkind)
      (hp.elim (fun hp => (h.wfOld.owner_of_parent? hp).2.1)
        fun hp => (h.wfNew.owner_of_parent? hp).2.1)
  have hmem : ∀ {element}, element ∈ tree.elements old new {} ↔
      element ∈ tree.selected {} ∨ ∃ table : ObjectId, table.kind = .table ∧
        ⟨table, .both⟩ ∈ tree.selected {} ∧ element ∈ columnChanges old new table := by
    refine ⟨mem_elements, ?_⟩
    rintro (hin | ⟨table, hkind, hin, hcolumn⟩)
    · exact List.mem_append_left _ hin
    · exact List.mem_append_right _ (List.mem_flatMap.2
        ⟨_, List.mem_filter.2 ⟨hin, by simp [hkind]⟩, hcolumn⟩)
  have hlisted : ∀ {element : Element}, element.id.kind ≠ .column →
      (element ∈ tree.elements old new {} ↔ element ∈ tree.selected {}) := fun hkind =>
    hmem.trans (or_iff_left fun ⟨_, _, _, hcolumn⟩ =>
      hkind ((mem_columnChanges_iff h).1 hcolumn).1)
  have hdistinct : ∀ {elements : List Element}, OwnersFirst old new elements →
      elements.Pairwise fun a b => a.id ≠ b.id := fun hfirst =>
    hfirst.imp fun hnot heq => hnot (.inl heq)
  -- Columns stand behind all else.
  have hcolumns : ∀ element ∈ ((tree.selected {}).filter fun element =>
      element.presence = .both && element.id.kind = .table).flatMap fun element =>
        columnChanges old new element.id, element.id.kind = .column := by
    intro element helement
    obtain ⟨table, -, helement⟩ := List.mem_flatMap.1 helement
    exact ((mem_columnChanges_iff h).1 helement).1
  refine ⟨?_, fun element hkind => ?_, fun element hkind => ?_, ?_⟩
  · refine List.pairwise_map.2 (List.pairwise_append.2 ⟨hdistinct hfirst,
      distinct_columnChanges h (hdistinct (hfirst.filter _)), fun a ha b hb heq => ?_⟩)
    exact ((hselected a).1 ha).1 (heq ▸ hcolumns b hb)
  · rw [hlisted hkind, hselected, and_iff_right hkind]
  · rw [hmem, hselected]
    constructor
    · rintro (⟨hnode, -⟩ | ⟨table, htableKind, htable, hcolumn⟩)
      · exact absurd hkind hnode
      · obtain ⟨-, hp, hmarks⟩ := (mem_columnChanges_iff h).1 hcolumn
        exact ⟨hmarks, table, hp, hmem.2 (.inl htable)⟩
    · rintro ⟨hmarks, table, hp, hin⟩
      have hkindTable := htable hkind hp
      refine .inr ⟨table, hkindTable, (hlisted ?_).1 hin,
        (mem_columnChanges_iff h).2 ⟨hkind, hp, hmarks⟩⟩
      simp [hkindTable]
  · refine List.pairwise_append.2 ⟨hfirst.imp fun hnot _ howns => hnot (.inr howns),
      List.pairwise_of_forall_mem_list fun a ha b _ hkind => absurd (hcolumns a ha) hkind,
      fun a _ b hb _ howns => ?_⟩
    have hsub : b.id.kind.isSubElement = true := by rw [hcolumns b hb]; rfl
    have hnot := howns.elim h.wfOld.not_isSubElement_of_owns h.wfNew.not_isSubElement_of_owns
    rw [hsub] at hnot
    cases hnot

end

end Difference

/-! ## Nothing to do -/

namespace Migration

open Staging

/-- Where no element is given, nothing is done: extra dependencies that are there give a migration
without actions. -/
theorem ofElements_nil {old new : Snapshot} {extra : ExtraDependencies}
    (hchecked : extra.check old new = .ok ()) :
    ofElements old new [] extra = .ok ⟨old, new, [], [], []⟩ := by
  have hexpand : Plan.expand ⟨old, new, []⟩ extra.old = ⟨old, new, []⟩ := rfl
  have hgraph : stepGraph { plan := ⟨old, new, []⟩, extra } = .ok ⟨[], []⟩ := rfl
  have hacyclic : acyclicGraph { plan := ⟨old, new, []⟩, extra } = .ok (⟨[], []⟩, {}) := by
    unfold acyclicGraph
    cases breakBound { plan := ⟨old, new, []⟩, extra } <;>
    · unfold acyclic
      rw [hgraph]
      rfl
  rw [ofElements, hchecked, ok_bind]
  change ofPlan ⟨old, new, []⟩ extra = _
  rw [ofPlan, hexpand, hacyclic]
  rfl

end Migration

namespace Difference

section
variable {old new : Snapshot} {builtOld builtNew : Builder}
  (hreachableOld : builtOld.Reachable) (hold : builtOld.finish = .ok old)
  (hreachableNew : builtNew.Reachable) (hnew : builtNew.finish = .ok new)
  (hdialect : old.dialect = new.dialect)
  (hparents : ∀ id, old.contains id = true → new.contains id = true →
    old.parent? id = new.parent? id)
include hreachableOld hold hreachableNew hnew hdialect hparents

/-- Two snapshots that were built can be compared, and if their fingerprints are faithful, the
elements to migrate are exactly their differences. -/
theorem exists_exact : ∃ tree, ofSnapshots old new = .ok tree ∧
    (old.PrintsFaithful new → Exact old new (tree.elements old new {})) := by
  have h : old.Together new := ⟨Builder.wellFormed_of_finish hreachableOld hold,
    Builder.wellFormed_of_finish hreachableNew hnew, hparents⟩
  have hprintedOld := Snapshot.printed_of_finish hreachableOld hold
  have hprintedNew := Snapshot.printed_of_finish hreachableNew hnew
  obtain ⟨left, right, tree?, hleft, hright, hcompare, tree, htree, hselected⟩ :=
    exists_ofSnapshots h.wfOld h.wfNew (Builder.typed_of_finish hreachableOld hold)
      (Builder.typed_of_finish hreachableNew hnew) hdialect
  refine ⟨tree, htree, fun hprints => exact_elements h (fun element => ?_) ?_⟩
  · rw [hselected, mem_compare_iff h hprints hprintedOld hprintedNew hcompare hleft hright
      (by decide) (Nat.le_add_right _ _)]
    -- Whatever differs is in one of the snapshots, so it is within the database.
    refine and_iff_right_of_imp fun hlisted => ?_
    exact hlisted.2.contains.elim (fun hin => (h.wfOld.owns_database hin).imp_right .inl)
      fun hin => (h.wfNew.owns_database hin).imp_right .inr
  · rw [hselected]
    exact ownersFirst_compare h hprints hprintedOld hprintedNew hcompare hleft hright
      (Nat.le_add_right _ _)

end

/-- Two snapshots hold the same objects, say the same of them, and have their columns in the same
order. -/
def Reordered (old new : Snapshot) : Prop :=
  ∀ id, old.contains id = new.contains id ∧ old.SameElement new id

/-- It is enough to compare the statements. -/
theorem reordered_of_statements {old new : Snapshot}
    (h : ∀ s ∈ old.statements ++ new.statements,
      old.contains s.id = true ∧ new.contains s.id = true ∧ old.SameElement new s.id) :
    Reordered old new := by
  intro id
  by_cases hid : old.contains id = true ∨ new.contains id = true
  · obtain ⟨s, hs, rfl⟩ : ∃ s ∈ old.statements ++ new.statements, s.id = id := by
      simpa [Snapshot.contains_iff_exists_mem, or_and_right, exists_or] using hid
    obtain ⟨hin, hin', hsame⟩ := h s hs
    exact ⟨hin.trans hin'.symm, hsame⟩
  · obtain ⟨hout, hout'⟩ := not_or.1 hid
    rw [Bool.not_eq_true] at hout hout'
    refine ⟨hout.trans hout'.symm, ?_⟩
    have hnone := Snapshot.not_contains_iff.1 hout
    have hnone' := Snapshot.not_contains_iff.1 hout'
    have hcolumns : ∀ {snapshot : Snapshot}, snapshot.get? id = none →
        snapshot.columnContents id = [] := by
      intro snapshot hnone
      rw [Snapshot.columnContents, Snapshot.columns, Statements.columns, Statements.children,
        show Statements.get? snapshot.statements id = none from hnone]
      rfl
    rw [Snapshot.SameElement, hnone, hnone', hcolumns hnone, hcolumns hnone']
    exact ⟨rfl, rfl⟩

/-- Fingerprints of snapshots that differ in the order of siblings only are faithful. -/
theorem Reordered.printsFaithful {old new : Snapshot} (h : Reordered old new) :
    old.PrintsFaithful new where
  element _ _ _ := (h _).2
  tree := by
    intro id hid hid' _ under hunder _
    have hthere : old.contains under = true ∨ new.contains under = true := by
      rcases hunder with rfl | howns | howns
      · exact .inl hid
      · exact .inl (Snapshot.contains_of_owns howns)
      · exact .inr (Snapshot.contains_of_owns howns)
    obtain ⟨heq, hsame⟩ := h under
    rw [heq, or_self] at hthere
    exact ⟨heq.trans hthere, hthere, hsame⟩

/-- Snapshots that differ in the order of siblings only have no differences. -/
theorem Exact.eq_nil {old new : Snapshot} {elements : List Element}
    (hexact : Exact old new elements) (hreordered : Reordered old new) : elements = [] := by
  refine List.eq_nil_iff_forall_not_mem.2 fun element hmem => ?_
  have hmarks : element.Marks old new := by
    by_cases hkind : element.id.kind = .column
    · exact ((hexact.column element hkind).1 hmem).1
    · exact (hexact.object element hkind).1 hmem
  obtain ⟨hsame, helement⟩ := hreordered element.id
  cases hpresence : element.presence <;>
    simp [Element.Marks, hpresence, hsame, helement] at hmarks

/-- **The differences are exact.** Two snapshots of one dialect that were built, in which no object
has different parents, can be compared, and the elements to migrate are exactly their differences.
If they differ in the order of siblings only, columns aside, there is nothing to migrate, and the
script is empty. -/
theorem differences_exact {old new : Snapshot} {builtOld builtNew : Builder}
    (hreachableOld : builtOld.Reachable) (hold : builtOld.finish = .ok old)
    (hreachableNew : builtNew.Reachable) (hnew : builtNew.finish = .ok new)
    (hdialect : old.dialect = new.dialect)
    (hparents : ∀ id, old.contains id = true → new.contains id = true →
      old.parent? id = new.parent? id) (hprints : old.PrintsFaithful new) :
    ∃ tree, ofSnapshots old new = .ok tree ∧ Exact old new (tree.elements old new {}) ∧
      (Reordered old new → tree.elements old new {} = [] ∧
        ∀ extra options, extra.check old new = .ok () → ∃ m script,
          Migration.ofElements old new (tree.elements old new {}) extra = .ok m ∧
            m.script options = .ok script ∧ script.render = "") := by
  obtain ⟨tree, htree, hexact⟩ :=
    exists_exact hreachableOld hold hreachableNew hnew hdialect hparents
  refine ⟨tree, htree, hexact hprints, fun hreordered => ?_⟩
  have hnil := (hexact hprints).eq_nil hreordered
  refine ⟨hnil, fun extra options hchecked => ⟨⟨old, new, [], [], []⟩,
    { dialect := new.dialect }, ?_, rfl, ?_⟩⟩
  · rw [hnil]
    exact Migration.ofElements_nil hchecked
  · simp [Script.render, Script.sorted, Script.renderFrom]

/-! ### Tables that change and change places -/

namespace ChangedTables

/-- The schema. -/
def schema : ObjectId := ⟨.schema, ["a"]⟩

/-- A column of a table of the schema. -/
def column (table name : String) : ObjectId := (ObjectId.table "a" table).child .column name

/-- Tables with the names and the types of their columns. -/
abbrev Tables := List (String × List (String × String))

/-- The builder of the schema with some tables. -/
def builder (tables : Tables) : Builder :=
  (Builder.new .postgres Sql.read).run <| .add .database "a" (.schema {}) ::
    tables.flatMap fun (table, columns) => .add schema table (.table {}) ::
      columns.map fun (name, dataType) => .add (.table "a" table) name (.column { dataType })

/-- The schema with some tables. -/
def statements (tables : Tables) : List Statement :=
  { id := .database, parent := none, definition := .database, children := [schema] } ::
    { id := schema, parent := some .database, definition := .schema {},
      children := tables.map fun (table, _) => .table "a" table } ::
    tables.flatMap fun (table, columns) =>
      { id := .table "a" table, parent := some schema, definition := .table {},
        children := columns.map fun (name, _) => column table name } ::
      columns.map fun (name, dataType) =>
        { id := column table name, parent := some (.table "a" table),
          definition := .column { dataType } }

/-- The snapshot of the schema with some tables. -/
def snapshot (tables : Tables) : Snapshot :=
  ⟨.postgres, statements tables, Fingerprint.table (statements tables)⟩

/-- The schema is built by calls. -/
theorem built {tables : Tables} (htasks : (builder tables).tasks = [])
    (hmissing : (builder tables).missing? = none)
    (hlinked : (builder tables).linked = statements tables) :
    (builder tables).Reachable ∧ (builder tables).finish = .ok (snapshot tables) := by
  have hdialect : (builder tables).dialect = .postgres :=
    (Builder.dialect_and_read_run .postgres Sql.read _).1
  refine ⟨(Builder.Reachable.new .postgres Sql.read).run _,
    Builder.finish_eq_ok.2 ⟨htasks, hmissing, ?_⟩⟩
  rw [hlinked, hdialect]
  rfl

/-- No object is under another parent if no statement is. -/
theorem parents_eq {old new : Snapshot}
    (h : ∀ s ∈ old.statements, new.contains s.id = true → old.parent? s.id = new.parent? s.id) :
    ∀ id, old.contains id = true → new.contains id = true → old.parent? id = new.parent? id := by
  intro id hid hid'
  obtain ⟨s, hs, rfl⟩ := Snapshot.contains_iff_exists_mem.1 hid
  exact h s hs hid'

/-- A table with two columns. -/
def first : Tables := [("t", [("id", "int"), ("name", "text")])]

/-- The table with another type of the first column and another second column. -/
def changed : Tables := [("t", [("id", "bigint"), ("note", "text")])]

/-- Two tables. -/
def two : Tables := [("t", [("id", "int")]), ("u", [("id", "int"), ("name", "text")])]

/-- The database and its schema stay the same. -/
theorem not_marks : ∀ id ∈ [ObjectId.database, schema], ∀ presence,
    ¬ Element.Marks (snapshot first) (snapshot changed) ⟨id, presence⟩ := by
  intro id hid presence
  cases presence <;> revert id <;> decide +kernel

/-- A table is listed with its changed, its removed and its added column, and nothing else is. If
two tables change places, there is nothing to migrate. -/
theorem tables_compared :
    (∃ tree, ofSnapshots (snapshot first) (snapshot changed) = .ok tree ∧
      (∀ element ∈ [⟨.table "a" "t", .both⟩, ⟨column "t" "id", .both⟩,
        ⟨column "t" "name", .onlyOld⟩, ⟨column "t" "note", .onlyNew⟩],
          element ∈ tree.elements (snapshot first) (snapshot changed) {}) ∧
      ∀ element ∈ tree.elements (snapshot first) (snapshot changed) {},
        element.id ∉ [.database, schema]) ∧
    ∃ tree, ofSnapshots (snapshot two) (snapshot two.reverse) = .ok tree ∧
      tree.elements (snapshot two) (snapshot two.reverse) {} = [] ∧ ∃ m script,
        Migration.ofElements (snapshot two) (snapshot two.reverse)
          (tree.elements (snapshot two) (snapshot two.reverse) {}) {} = .ok m ∧
        m.script {} = .ok script ∧ script.render = "" := by
  constructor
  · obtain ⟨hreachable, hfinish⟩ := @built first (by decide +kernel) (by decide +kernel)
      (by decide +kernel)
    obtain ⟨hreachable', hfinish'⟩ := @built changed (by decide +kernel) (by decide +kernel)
      (by decide +kernel)
    have hprints : (snapshot first).PrintsFaithful (snapshot changed) := by
      refine Snapshot.printsFaithful_of_statements (Builder.wellFormed_of_finish hreachable hfinish)
        (Builder.wellFormed_of_finish hreachable' hfinish') ?_
      decide +kernel
    obtain ⟨tree, htree, hexact, -⟩ := differences_exact hreachable hfinish hreachable' hfinish' rfl
      (parents_eq (by decide +kernel)) hprints
    have htable : ⟨.table "a" "t", .both⟩ ∈ tree.elements (snapshot first) (snapshot changed) {} :=
      (hexact.object _ (by decide)).2 (by decide +kernel)
    have hcolumn : ∀ element : Element, element.id.kind = .column →
        element.Marks (snapshot first) (snapshot changed) →
        ((snapshot first).parent? element.id = some (.table "a" "t") ∨
          (snapshot changed).parent? element.id = some (.table "a" "t")) →
        element ∈ tree.elements (snapshot first) (snapshot changed) {} :=
      fun element hkind hmarks hp => (hexact.column element hkind).2 ⟨hmarks, _, hp, htable⟩
    refine ⟨tree, htree, ?_, fun element hmem hid => ?_⟩
    · simp only [List.mem_cons, List.not_mem_nil, or_false, forall_eq_or_imp, forall_eq]
      exact ⟨htable, hcolumn _ rfl (by decide +kernel) (by decide +kernel),
        hcolumn _ rfl (by decide +kernel) (by decide +kernel),
        hcolumn _ rfl (by decide +kernel) (by decide +kernel)⟩
    · have hkind : element.id.kind ≠ .column := by
        revert hid
        exact (by decide : ∀ id ∈ [ObjectId.database, schema], id.kind ≠ .column) element.id
      exact not_marks element.id hid element.presence ((hexact.object element hkind).1 hmem)
  · obtain ⟨hreachable, hfinish⟩ := @built two (by decide +kernel) (by decide +kernel)
      (by decide +kernel)
    obtain ⟨hreachable', hfinish'⟩ := @built two.reverse (by decide +kernel) (by decide +kernel)
      (by decide +kernel)
    have hreordered : Reordered (snapshot two) (snapshot two.reverse) :=
      reordered_of_statements (by decide +kernel)
    obtain ⟨tree, htree, -, hempty⟩ := differences_exact hreachable hfinish hreachable' hfinish' rfl
      (parents_eq (by decide +kernel)) hreordered.printsFaithful
    obtain ⟨hnil, hscript⟩ := hempty hreordered
    exact ⟨tree, htree, hnil, hscript {} {} rfl⟩

end ChangedTables

end Difference

end SchemaMigration
