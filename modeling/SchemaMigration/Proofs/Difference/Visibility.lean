import SchemaMigration.Proofs.Difference.Exactness
import SchemaMigration.Proofs.Snapshot.FingerprintBytes

/-!
# What a comparison cannot see

Fingerprints of two snapshots agree where their objects do not only if SHA-256 collides on two of
the byte strings that were hashed (`Snapshot.Collide`), or if one of these strings can be read in
two ways (`Snapshot.Confused`): down to the bytes, a digest determines what it stands for
(`Snapshot.collide_or_confused`, `Fingerprint.bytes_determine`). An owner that holds a zero
character is a case of the second kind, and the comparison overlooks the change
(`Difference.HiddenOwner`).
-/

namespace SchemaMigration

namespace Snapshot

/-- The byte strings from which the digests of a snapshot are taken. -/
def hashed (snapshot : Snapshot) : List (List UInt8) :=
  snapshot.statements.flatMap fun s =>
    [Fingerprint.ownBytes s,
      Fingerprint.elementBytes (snapshot.fingerprint s.id).own (snapshot.columnPrints s.id),
      Fingerprint.treeBytes (snapshot.fingerprint s.id).element (snapshot.branchPrints s.id)]

/-- Different byte strings of two snapshots have one digest. -/
def Collide (old new : Snapshot) : Prop :=
  ∃ m ∈ old.hashed, ∃ m' ∈ new.hashed, m ≠ m' ∧ Digest.sha256 m = Digest.sha256 m'

/-- Something that two snapshots say of one object can be read in two ways: as an owner or as an
owner with a comment, or as one or several columns or branches. -/
inductive Confused (old new : Snapshot) : Prop
  | remarks {id : ObjectId} {s t : Statement} (hs : old.get? id = some s)
    (ht : new.get? id = some t)
      (hsame : s.remarks = t.remarks) (hdiffers : (s.owner, s.comment) ≠ (t.owner, t.comment))
  | columns (id : ObjectId)
      (hruns : Fingerprint.Ambiguous (old.columnPrints id) (new.columnPrints id))
  | branches (id : ObjectId)
      (hruns : Fingerprint.Ambiguous (old.branchPrints id) (new.branchPrints id))

variable {snapshot old new : Snapshot} {id : ObjectId} {s t : Statement}

/-! ## Digests of snapshots -/

/-- What is hashed for a statement. -/
theorem mem_hashed (hs : snapshot.get? id = some s) : Fingerprint.ownBytes s ∈ snapshot.hashed ∧
    Fingerprint.elementBytes (snapshot.fingerprint id).own (snapshot.columnPrints id) ∈
      snapshot.hashed ∧
    Fingerprint.treeBytes (snapshot.fingerprint id).element (snapshot.branchPrints id) ∈
      snapshot.hashed := by
  obtain ⟨hmem, rfl⟩ := get?_some hs
  refine ⟨?_, ?_, ?_⟩ <;> exact List.mem_flatMap.2 ⟨s, hmem, by simp⟩

namespace Printed

variable (h : snapshot.Printed)
include h

/-- The digests of a statement are complete. -/
theorem length_eq (hs : snapshot.get? id = some s) :
    (snapshot.fingerprint id).own.bytes.length = 32 ∧
    (snapshot.fingerprint id).element.bytes.length = 32 ∧
      (snapshot.fingerprint id).tree.bytes.length = 32 := by
  rw [h.own_eq hs, h.element_eq hs, h.tree_eq hs]
  exact ⟨Digest.length_bytes_sha256 _, Digest.length_bytes_sha256 _, Digest.length_bytes_sha256 _⟩

/-- The digests of the columns of an object are complete. -/
theorem complete_columnPrints (hwf : snapshot.WellFormed) :
    Fingerprint.Complete (snapshot.columnPrints id) := by
  intro entry hentry
  obtain ⟨column, hcolumn, rfl⟩ := List.mem_map.1 hentry
  exact (h.length_eq (hwf.mem_children.1 (List.mem_filter.1 hcolumn).1).1).1

/-- The digests of the branches of an object are complete. -/
theorem complete_branchPrints (hwf : snapshot.WellFormed) :
    Fingerprint.Complete (snapshot.branchPrints id) := by
  intro entry hentry
  obtain ⟨child, hchild, rfl⟩ := List.mem_map.1 hentry
  exact (h.length_eq (hwf.mem_children.1 (List.mem_filter.1 hchild).1).1).2.2

end Printed

/-! ## What equal digests say -/

/-- Lists with equal images have equal images under maps that depend on the former ones. -/
theorem map_eq_map_of_imp {α β γ δ : Type} {f : α → γ} {g : β → γ} {f' : α → δ} {g' : β → δ}
    {as : List α} {bs : List β} (h : as.map f = bs.map g)
    (himp : ∀ a ∈ as, ∀ b ∈ bs, f a = g b → f' a = g' b) : as.map f' = bs.map g' := by
  induction as generalizing bs with
  | nil =>
    rw [List.map_eq_nil_iff.1 h.symm]
    rfl
  | cons a as ih =>
    cases bs with
    | nil => cases h
    | cons b bs =>
      obtain ⟨hhead, htail⟩ := List.cons.inj h
      rw [List.map_cons, List.map_cons, himp a List.mem_cons_self b List.mem_cons_self hhead,
        ih htail fun a ha b hb => himp a (List.mem_cons_of_mem _ ha) b (List.mem_cons_of_mem _ hb)]

/-- A child is the child of its kind and its name. -/
theorem WellFormed.eq_child (hwf : snapshot.WellFormed) (hs : s ∈ snapshot.children id) :
    s.id = id.child s.id.kind s.id.name := by
  obtain ⟨hget, hp⟩ := hwf.mem_children.1 hs
  exact (hwf.owned s (get?_some hget).1 id hp).2.1

/-- Two well-formed snapshots with their fingerprints, of which no two digests collide and nothing
can be read in two ways. -/
structure Legible (old new : Snapshot) : Prop where
  wfOld : old.WellFormed
  wfNew : new.WellFormed
  printedOld : old.Printed
  printedNew : new.Printed
  apart : ¬ old.Collide new
  clear : ¬ old.Confused new

namespace Legible

variable (h : old.Legible new)
include h

/-- What has one digest is one byte string. -/
theorem eq_of_sha256_eq {m m' : List UInt8} (hm : m ∈ old.hashed) (hm' : m' ∈ new.hashed)
    (heq : Digest.sha256 m = Digest.sha256 m') : m = m' :=
  by_contra fun hne => h.apart ⟨m, hm, m', hm', hne, heq⟩

/-- Objects with one own digest say the same. -/
theorem content_eq_of_own_eq (hs : old.get? id = some s) (ht : new.get? id = some t)
    (heq : (old.fingerprint id).own = (new.fingerprint id).own) : s.content = t.content := by
  rw [h.printedOld.own_eq hs, h.printedNew.own_eq ht] at heq
  obtain ⟨-, hdefinition, hremarks⟩ := Fingerprint.ownBytes_eq_iff.1
    (h.eq_of_sha256_eq (mem_hashed hs).1 (mem_hashed ht).1 heq)
  have hrest : (s.owner, s.comment) = (t.owner, t.comment) :=
    by_contra fun hne => h.clear (.remarks hs ht hremarks hne)
  rw [Statement.content, Statement.content, hdefinition, (Prod.mk.inj hrest).1,
    (Prod.mk.inj hrest).2]

/-- Objects with one element digest say the same, and so do their columns. -/
theorem sameElement_of_element_eq (hs : old.get? id = some s) (ht : new.get? id = some t)
    (heq : (old.fingerprint id).element = (new.fingerprint id).element) :
    old.SameElement new id := by
  rw [h.printedOld.element_eq hs, h.printedNew.element_eq ht] at heq
  obtain ⟨hown, hcolumns⟩ := Fingerprint.elementBytes_inj (h.printedOld.length_eq hs).1
    (h.printedNew.length_eq ht).1 (h.printedOld.complete_columnPrints h.wfOld)
    (h.printedNew.complete_columnPrints h.wfNew)
    (h.eq_of_sha256_eq (mem_hashed hs).2.1 (mem_hashed ht).2.1 heq)
  have hcontent := h.content_eq_of_own_eq hs ht hown
  refine ⟨by rw [hs, ht, Option.map_some, Option.map_some, hcontent], ?_⟩
  refine map_eq_map_of_imp (hcolumns.resolve_right fun hruns => h.clear (.columns id hruns)) ?_
  intro column hcolumn column' hcolumn' heq
  obtain ⟨hcolumn, hkind⟩ := List.mem_filter.1 hcolumn
  obtain ⟨hcolumn', hkind'⟩ := List.mem_filter.1 hcolumn'
  -- Columns of one table with one name are the same column.
  have hid : column.id = column'.id := by
    rw [h.wfOld.eq_child hcolumn, h.wfNew.eq_child hcolumn', (Prod.mk.inj heq).1,
      show column.id.kind = _ from of_decide_eq_true hkind,
      show column'.id.kind = _ from of_decide_eq_true hkind']
  have hget := (h.wfNew.mem_children.1 hcolumn').1
  rw [← hid] at hget heq
  rw [hid, h.content_eq_of_own_eq (h.wfOld.mem_children.1 hcolumn).1 hget (Prod.mk.inj heq).2]

/-- Objects with one tree digest have the same branches, whose trees have one digest each. -/
theorem branch_of_tree_eq (hs : old.get? id = some s) (ht : new.get? id = some t)
    (heq : (old.fingerprint id).tree = (new.fingerprint id).tree) :
    (old.fingerprint id).element = (new.fingerprint id).element ∧
      ∀ branch, branch.kind ≠ .column →
        (old.parent? branch = some id ∨ new.parent? branch = some id) →
        old.contains branch = true ∧ new.contains branch = true ∧
          (old.fingerprint branch).tree = (new.fingerprint branch).tree := by
  rw [h.printedOld.tree_eq hs, h.printedNew.tree_eq ht] at heq
  obtain ⟨helement, hbranches⟩ := Fingerprint.treeBytes_inj (h.printedOld.length_eq hs).2.1
    (h.printedNew.length_eq ht).2.1 (h.printedOld.complete_branchPrints h.wfOld)
    (h.printedNew.complete_branchPrints h.wfNew)
    (h.eq_of_sha256_eq (mem_hashed hs).2.2 (mem_hashed ht).2.2 heq)
  have hperm := hbranches.resolve_right fun hruns => h.clear (.branches id hruns)
  refine ⟨helement, ?_⟩
  -- A branch is found on the other side by its text, which is that of one child only.
  have hfound : ∀ {a b : Snapshot}, a.WellFormed → b.WellFormed →
      (∀ entry ∈ a.branchPrints id, entry ∈ b.branchPrints id) → ∀ branch, branch.kind ≠ .column →
      a.parent? branch = some id → b.contains branch = true ∧
        (a.fingerprint branch).tree = (b.fingerprint branch).tree := by
    intro a b ha hb hsub branch hkind hp
    obtain ⟨child, hchild, rfl⟩ := ha.exists_mem_children.2 hp
    obtain ⟨other, hother, heq⟩ := List.mem_map.1 (hsub _ (List.mem_map.2
      ⟨child, List.mem_filter.2 ⟨hchild, decide_eq_true hkind⟩, rfl⟩))
    obtain ⟨hother, -⟩ := List.mem_filter.1 hother
    obtain ⟨htext, htree⟩ := Prod.mk.inj heq
    have hid : other.id = child.id := by
      rw [hb.eq_child hother, ha.eq_child hchild] at htext
      obtain ⟨hkinds, hnames⟩ := ObjectId.display_child_inj htext
      rw [hb.eq_child hother, ha.eq_child hchild, hkinds, hnames]
    rw [hid] at htree
    exact ⟨hid ▸ contains_of_mem_children hother, htree.symm⟩
  rintro branch hkind (hp | hp)
  · obtain ⟨hin, htree⟩ := hfound h.wfOld h.wfNew (fun _ hentry => hperm.mem_iff.1 hentry) branch
      hkind hp
    exact ⟨contains_of_parent? hp, hin, htree⟩
  · obtain ⟨hin, htree⟩ := hfound h.wfNew h.wfOld (fun _ hentry => hperm.mem_iff.2 hentry) branch
      hkind hp
    exact ⟨hin, contains_of_parent? hp, htree.symm⟩

/-- **Fingerprints agree only where what they stand for does.** -/
theorem printsFaithful : old.PrintsFaithful new := by
  refine printsFaithful_of_branches h.wfOld h.wfNew (fun hold hnew heq => ?_)
    fun hold hnew heq => ?_
  · obtain ⟨s, hs⟩ := contains_iff.1 hold
    obtain ⟨t, ht⟩ := contains_iff.1 hnew
    exact h.sameElement_of_element_eq hs ht heq
  · obtain ⟨s, hs⟩ := contains_iff.1 hold
    obtain ⟨t, ht⟩ := contains_iff.1 hnew
    exact h.branch_of_tree_eq hs ht heq

end Legible

/-- If fingerprints agree where what they stand for does not, then two digests collide, or something
can be read in two ways. -/
theorem collide_or_confused {builtOld builtNew : Builder} (hreachableOld : builtOld.Reachable)
    (hold : builtOld.finish = .ok old) (hreachableNew : builtNew.Reachable)
    (hnew : builtNew.finish = .ok new) (hprints : ¬ old.PrintsFaithful new) :
    old.Collide new ∨ old.Confused new := by
  by_contra hneither
  obtain ⟨hapart, hclear⟩ := not_or.1 hneither
  exact hprints (Legible.printsFaithful ⟨Builder.wellFormed_of_finish hreachableOld hold,
    Builder.wellFormed_of_finish hreachableNew hnew, printed_of_finish hreachableOld hold,
    printed_of_finish hreachableNew hnew, hapart, hclear⟩)

end Snapshot

/-! ## What bytes determine -/

/-- **Bytes determine what they stand for.** The own bytes of statements are equal exactly if the
kind, the definition and the remarks are, and the remarks determine the owner and the comment unless
an owner holds a zero character. The bytes of elements are equal only if the own digests and the
lists of columns are, and those of trees only if the digests of the elements and the children are,
unless a name runs on. So fingerprints of snapshots that were built are faithful, and where nothing
has moved to another parent the elements to migrate are exactly the differences, unless two digests
collide or something can be read in two ways. -/
theorem Fingerprint.bytes_determine (s t : Statement) :
    (ownBytes s = ownBytes t ↔
      s.kind = t.kind ∧ s.definition = t.definition ∧ s.remarks = t.remarks) ∧
    (s.remarks = t.remarks → (s.owner = t.owner ∧ s.comment = t.comment) ∨
      ∃ owner, (s.owner = some owner ∨ t.owner = some owner) ∧ '\x00' ∈ owner.toList) ∧
    (∀ {own own' : Digest} {columns columns' : List (String × Digest)},
      own.bytes.length = 32 → own'.bytes.length = 32 → Complete columns → Complete columns' →
        elementBytes own columns = elementBytes own' columns' →
          own = own' ∧ (columns = columns' ∨ Ambiguous columns columns')) ∧
    (∀ {owner : ObjectId} {element element' : Digest}
      {children children' : List ((ObjectKind × String) × Digest)},
      element.bytes.length = 32 → element'.bytes.length = 32 →
      (∀ child ∈ children, child.2.bytes.length = 32) →
      (∀ child ∈ children', child.2.bytes.length = 32) →
        treeBytes element (children.map (branch owner)) =
            treeBytes element' (children'.map (branch owner)) →
          element = element' ∧ (children.Perm children' ∨
            Ambiguous (children.map (branch owner)) (children'.map (branch owner)))) ∧
    ∀ {old new : Snapshot} {builtOld builtNew : Builder},
      builtOld.Reachable → builtOld.finish = .ok old → builtNew.Reachable →
      builtNew.finish = .ok new →
        (old.PrintsFaithful new ∨ old.Collide new ∨ old.Confused new) ∧
        (old.dialect = new.dialect →
          (∀ id, old.contains id = true → new.contains id = true →
            old.parent? id = new.parent? id) →
          ∃ tree, Difference.ofSnapshots old new = .ok tree ∧
            (Difference.Exact old new (tree.elements old new {}) ∨
              old.Collide new ∨ old.Confused new)) := by
  refine ⟨ownBytes_eq_iff, fun hsame => ?_, elementBytes_inj, treeBytes_children_inj, ?_⟩
  · by_contra hnot
    obtain ⟨hdiffers, hzero⟩ := not_or.1 hnot
    exact hdiffers (Statement.eq_of_remarks_eq
      (fun owner hs hin => hzero ⟨owner, .inl hs, hin⟩)
      (fun owner ht hin => hzero ⟨owner, .inr ht, hin⟩) hsame)
  · intro old new builtOld builtNew hreachableOld hold hreachableNew hnew
    have hfaithful : old.PrintsFaithful new ∨ old.Collide new ∨ old.Confused new :=
      or_iff_not_imp_left.2
        (Snapshot.collide_or_confused hreachableOld hold hreachableNew hnew)
    refine ⟨hfaithful, fun hdialect hparents => ?_⟩
    obtain ⟨tree, htree, hexact⟩ :=
      Difference.exists_exact hreachableOld hold hreachableNew hnew hdialect hparents
    exact ⟨tree, htree, hfaithful.imp_left hexact⟩

/-- A comparison ends where two trees have one digest. -/
theorem Difference.compare_of_tree_eq {old new : Snapshot} {left right : Statement} {depth : Nat}
    (hkind : left.definition.kind = right.definition.kind)
    (htree : (old.fingerprint left.id).tree = (new.fingerprint right.id).tree) :
    compare old new depth left right = .ok none := by
  cases depth with
  | zero => rfl
  | succ depth =>
    unfold compare
    rw [if_neg (not_not.2 hkind)]
    exact if_pos htree

/-! ### An owner that hides a comment -/

namespace Difference.HiddenOwner

/-- The schema. -/
def schema : ObjectId := ⟨.schema, ["a"]⟩

/-- The statement of the database. -/
def database : Statement where
  id := .database
  parent := none
  definition := .database
  children := [schema]

/-- The statement of the schema. -/
def statement (owner : String) (comment : Option String) : Statement where
  id := schema
  parent := some .database
  definition := .schema {}
  owner := some owner
  comment

/-- A database with the schema. -/
def builder (owner : String) (comment : Option String) : Builder where
  dialect := .postgres
  read := Sql.read
  statements := [database, statement owner comment]

/-- The snapshot of the database. -/
def snapshot (owner : String) (comment : Option String) : Snapshot where
  dialect := .postgres
  statements := (builder owner comment).statements
  fingerprints := Fingerprint.table (builder owner comment).statements

/-- The schema has an owner that reads like an owner with a comment. -/
def before : Snapshot := snapshot "o\x00comment\x00c" none

/-- The schema has the owner and the comment. -/
def after : Snapshot := snapshot "o" (some "c")

/-- A builder comes to the schema with its owner. -/
theorem reachable_owner (owner : String) : (builder owner none).Reachable := by
  have hadded : (Builder.new .postgres Sql.read).add .database "a" (.schema {}) =
      .ok (schema, { builder owner none with statements :=
        [database, { id := schema, parent := some .database, definition := .schema {} }] }) := rfl
  exact .setOwner (.add (.new .postgres Sql.read) hadded)
    (show Builder.setOwner _ schema owner = _ from rfl)

/-- A builder comes to the schema with its owner and its comment. -/
theorem reachable_comment (owner comment : String) : (builder owner (some comment)).Reachable :=
  .setComment (reachable_owner owner) (show Builder.setComment _ schema comment = _ from rfl)

/-- Before, the database was built. -/
theorem finish_before : (builder "o\x00comment\x00c" none).finish = .ok before := rfl

/-- Afterwards, the database was built. -/
theorem finish_after : (builder "o" (some "c")).finish = .ok after := rfl

/-- The own bytes of the schema are the same. -/
theorem ownBytes_eq : Fingerprint.ownBytes (statement "o\x00comment\x00c" none) =
    Fingerprint.ownBytes (statement "o" (some "c")) :=
  Fingerprint.ownBytes_eq_iff.2 ⟨rfl, rfl, by decide⟩

/-- So are all fingerprints. -/
theorem fingerprint_eq (id : ObjectId) : before.fingerprint id = after.fingerprint id := by
  have hschema : Fingerprint.ofStatement (statement "o\x00comment\x00c" none) [] =
      Fingerprint.ofStatement (statement "o" (some "c")) [] := by
    simp only [Fingerprint.ofStatement, ownBytes_eq]
  have htable : before.fingerprints = after.fingerprints := by
    change [(_, Fingerprint.ofStatement _ [(schema, Fingerprint.ofStatement _ [])]),
      (schema, Fingerprint.ofStatement _ [])] = _
    rw [hschema]
    rfl
  rw [Snapshot.fingerprint, Snapshot.fingerprint, htable]

/-- The schema has another owner and a comment, but its own bytes are the same, and the comparison
sees no difference. -/
theorem change_overlooked :
    (∃ b : Builder, b.Reachable ∧ b.finish = .ok before) ∧
    (∃ b : Builder, b.Reachable ∧ b.finish = .ok after) ∧
    ∃ s t, before.get? schema = some s ∧ after.get? schema = some t ∧
      s.owner ≠ t.owner ∧ s.comment ≠ t.comment ∧
      Fingerprint.ownBytes s = Fingerprint.ownBytes t ∧
      ∃ tree, ofSnapshots before after = .ok tree ∧ tree.elements before after {} = [] := by
  have htree : (before.fingerprint database.id).tree = (after.fingerprint database.id).tree :=
    congrArg Fingerprint.tree (fingerprint_eq _)
  have hdiff := ofSnapshots_eq (show before.dialect = after.dialect from rfl)
    (show before.get? .database = some database from rfl)
    (show after.get? .database = some database from rfl) (compare_of_tree_eq rfl htree)
  exact ⟨⟨_, reachable_owner _, finish_before⟩, ⟨_, reachable_comment _ _, finish_after⟩,
    statement "o\x00comment\x00c" none, statement "o" (some "c"), rfl, rfl, by decide, by decide,
    ownBytes_eq, _, hdiff, rfl⟩

/-- A digest of zeros. -/
def zeros : Digest := ⟨List.replicate 32 0⟩

/-- The name of a column that runs on into the digest of another one. -/
def merged : String := "a" ++ String.ofList (List.replicate 32 '\x00') ++ "b"

/-- Two children enter the tree of the schema in one order. -/
theorem treeBytes_swap : Fingerprint.treeBytes zeros
    ([((.table, "t"), zeros), ((.view, "v"), zeros)].map (Fingerprint.branch schema)) =
      Fingerprint.treeBytes zeros
        ([((.view, "v"), zeros), ((.table, "t"), zeros)].map (Fingerprint.branch schema)) := by
  have hle : (Ord.compare "TABLE a.t" "VIEW a.v").isLE = true := by decide +kernel
  have hnot : (Ord.compare "VIEW a.v" "TABLE a.t").isLE = false := by decide +kernel
  change Fingerprint.treeBytes zeros [("TABLE a.t", zeros), ("VIEW a.v", zeros)] =
    Fingerprint.treeBytes zeros [("VIEW a.v", zeros), ("TABLE a.t", zeros)]
  simp [Fingerprint.treeBytes, Fingerprint.sortedChildren, List.mergeSort,
    List.MergeSort.Internal.splitInTwo, hle, hnot]

/-- An owner holds a zero character, and the change can be read in two ways, unless digests collide.
Two columns whose digests are zeros read like one column. The order of children does not enter a
tree. -/
theorem change_confused :
    (∃ owner, (owner = "o\x00comment\x00c" ∨ owner = "o") ∧ '\x00' ∈ owner.toList) ∧
    (before.Collide after ∨ before.Confused after) ∧
    Fingerprint.Ambiguous [("a", zeros), ("b", zeros)] [(merged, zeros)] ∧
    ([((ObjectKind.table, "t"), zeros), ((.view, "v"), zeros)].Perm
        [((.view, "v"), zeros), ((.table, "t"), zeros)] ∨
      Fingerprint.Ambiguous [("TABLE a.t", zeros), ("VIEW a.v", zeros)]
        [("VIEW a.v", zeros), ("TABLE a.t", zeros)]) := by
  obtain ⟨hown, hremarks, hcolumns, hchildren, hbuilt⟩ := Fingerprint.bytes_determine
    (statement "o\x00comment\x00c" none) (statement "o" (some "c"))
  refine ⟨?_, ?_, ?_, ?_⟩
  · obtain ⟨owner, howner, hzero⟩ :=
      (hremarks (hown.1 ownBytes_eq).2.2).resolve_left (by decide)
    exact ⟨owner, howner.imp (fun h => (Option.some.inj h).symm)
      fun h => (Option.some.inj h).symm, hzero⟩
  · refine (hbuilt (reachable_owner _) finish_before (reachable_comment _ _) finish_after).1
      |>.resolve_left fun hprints => ?_
    have hsame : before.SameElement after schema :=
      hprints.element rfl rfl (congrArg Fingerprint.element (fingerprint_eq _))
    exact absurd hsame (by decide)
  · have hbytes : Fingerprint.elementBytes zeros [("a", zeros), ("b", zeros)] =
        Fingerprint.elementBytes zeros [(merged, zeros)] := by decide +kernel
    exact (hcolumns rfl rfl (by simp [Fingerprint.Complete, zeros])
      (by simp [Fingerprint.Complete, zeros]) hbytes).2.resolve_left (by decide)
  · exact (hchildren rfl rfl (by simp [zeros]) (by simp [zeros]) treeBytes_swap).2

end Difference.HiddenOwner

end SchemaMigration
