import Mathlib.Logic.Function.Basic
import SchemaMigration.Proofs.Snapshot.Fingerprint
import SchemaMigration.Proofs.Snapshot.FingerprintBytes
import SchemaMigration.Proofs.Snapshot.Queries

/-!
# One pass takes all fingerprints

A table that holds something for every identity, whatever that is at first, is filled in one pass:
each turn makes the fingerprint of a statement from what the table holds for its children
(`Fingerprint.pass`). In a built snapshot children stand behind their parents, so a turn reads final
fingerprints only, and nothing of what was in the table at first is left in what the pass gives. The
fingerprints are the only ones that follow the recursion over the tree (`Fingerprint.Follows`). The
recursion takes columns in their order and all other children in the order of their texts. So the
fingerprints of two snapshots are the same if one has the children of the other in another order,
with columns among themselves in the same one (`Builder.fingerprints_by_recursion`).
-/

namespace SchemaMigration

namespace Fingerprint

variable {s t : Statement} {id : ObjectId} {statements before rest : List Statement}

/-! ## The pass -/

/-- A turn of the pass: the fingerprint of a statement is made of what is stored for its children,
and stored. -/
def turn (s : Statement) (stored : ObjectId → Fingerprint) : ObjectId → Fingerprint :=
  Function.update stored s.id (ofStatement s (s.children.map fun child => (child, stored child)))

/-- The pass from the last statement to the first. -/
def pass (stored : ObjectId → Fingerprint) (statements : List Statement) :
    ObjectId → Fingerprint :=
  statements.foldr turn stored

/-- A turn stores the fingerprint of its statement. -/
theorem turn_self (s : Statement) (stored : ObjectId → Fingerprint) : turn s stored s.id =
    ofStatement s (s.children.map fun child => (child, stored child)) :=
  Function.update_self s.id _ _

/-- A turn leaves what is stored for another identity alone. -/
theorem turn_of_ne (stored : ObjectId → Fingerprint) (h : id ≠ s.id) :
    turn s stored id = stored id :=
  Function.update_of_ne h _ _

/-- The first statement has the last turn. -/
theorem pass_cons (stored : ObjectId → Fingerprint) (s : Statement) (rest : List Statement) :
    pass stored (s :: rest) = turn s (pass stored rest) := rfl

/-- Turns for other statements leave what is stored for an identity alone. -/
theorem pass_append_of_not_mem (stored : ObjectId → Fingerprint) (h : id ∉ before.map (·.id)) :
    pass stored (before ++ rest) id = pass stored rest id := by
  induction before with
  | nil => rfl
  | cons first before ih =>
    rw [List.map_cons, List.mem_cons, not_or] at h
    rw [List.cons_append, pass_cons, turn_of_ne _ h.1, ih h.2]

/-- No statement of a list has a child in front of it. -/
def ChildrenBehind (statements : List Statement) : Prop :=
  ∀ before s rest, statements = before ++ s :: rest → ∀ child ∈ s.children, child ∈ rest.map (·.id)

/-- If children stand behind their parents, the pass stores what the table of fingerprints has,
whatever is stored at first. -/
theorem lookup_table_eq_pass (stored : ObjectId → Fingerprint) (h : ChildrenBehind statements)
    (hid : id ∈ statements.map (·.id)) :
    (table statements).lookup id = some (pass stored statements id) := by
  induction statements generalizing id with
  | nil => cases hid
  | cons s rest ih =>
    have hrest : ChildrenBehind rest := fun before t after hsplit =>
      h (s :: before) t after (congrArg (s :: ·) hsplit)
    by_cases heq : id = s.id
    · have hchildren : childrenIn (table rest) s =
          s.children.map fun child => (child, pass stored rest child) := by
        rw [childrenIn, ← List.filterMap_eq_map]
        refine List.filterMap_congr fun child hchild => ?_
        rw [ih hrest (h [] s rest rfl child hchild)]
        rfl
      rw [heq, table, List.lookup_cons_self, pass_cons, turn_self, ← hchildren]
      rfl
    · have hbehind := (List.mem_cons.1 hid).resolve_left heq
      rw [table, lookup_cons_of_ne heq, ih hrest hbehind, pass_cons, turn_of_ne _ heq]

/-! ## The recursion -/

/-- Texts of which each comes before the next one. -/
def TextsAscend (ids : List ObjectId) : Prop :=
  ids.Pairwise fun a b => compare a.display b.display = .lt

/-- A fingerprint is made of what a statement says and of the fingerprints of its children: its own
digest is that of its content. -/
structure Follows (print : ObjectId → Fingerprint) (s : Statement) : Prop where
  own : (print s.id).own = Digest.sha256 (ownBytes s)
  /-- In the digest of the element the own digest is followed by the name and the own digest of each
  column, in their order. -/
  element : (print s.id).element = Digest.sha256 ((print s.id).own.bytes ++
    (s.children.filter (·.kind = .column)).flatMap fun column =>
      bytes column.name ++ (print column).own.bytes)
  /-- In the digest of the tree that of the element is followed by the text and the digest of the
  tree of every other child, in the order of the texts. -/
  tree : ∃ branches : List ObjectId, branches.Perm (s.children.filter (·.kind ≠ .column)) ∧
    TextsAscend branches ∧
    (print s.id).tree = Digest.sha256 ((print s.id).element.bytes ++
      branches.flatMap fun branch => bytes branch.display ++ (print branch).tree.bytes)

/-- Identities are put into the order of their texts in one way. -/
theorem TextsAscend.eq_of_perm {ids others : List ObjectId} (h : TextsAscend ids)
    (hothers : TextsAscend others) (hperm : ids.Perm others) : ids = others := by
  refine List.Perm.eq_of_pairwise (fun a b _ _ hab hba => ?_) h hothers hperm
  rw [Std.OrientedOrd.eq_swap (a := b.display), hab] at hba
  cases hba

/-- Identities with different texts can be put into the order of these. -/
theorem textsAscend_mergeSort {ids : List ObjectId} (h : (ids.map (·.display)).Nodup) :
    TextsAscend (ids.mergeSort fun a b => (compare a.display b.display).isLE) := by
  have hsorted : (ids.mergeSort fun a b => (compare a.display b.display).isLE).Pairwise
      fun a b => (compare a.display b.display).isLE = true := by
    refine List.pairwise_mergeSort (fun _ _ _ => Std.TransCmp.isLE_trans) (fun a b => ?_) ids
    rw [Std.OrientedOrd.eq_swap (a := b.display)]
    cases compare a.display b.display <;> rfl
  have hdistinct : (ids.mergeSort fun a b => (compare a.display b.display).isLE).Pairwise
      fun a b => a.display ≠ b.display :=
    List.pairwise_map.1 (((List.mergeSort_perm ids _).map _).nodup_iff.2 h)
  refine (hsorted.and hdistinct).imp fun {a b} hab => ?_
  refine (Ordering.isLE_iff_eq_lt_or_eq_eq.1 hab.1).resolve_right fun heq => hab.2 ?_
  exact Std.LawfulEqCmp.eq_of_compare heq

/-- What is made of a statement and of the fingerprints of its children follows the recursion, if
the texts of the children are different. -/
theorem follows_of_eq {print : ObjectId → Fingerprint}
    (hdistinct : (s.children.map (·.display)).Nodup)
    (h : print s.id = ofStatement s (s.children.map fun child => (child, print child))) :
    Follows print s := by
  have hcolumns : ((s.children.map fun child => (child, print child)).partition
      fun child => decide (child.1.kind = .column)) =
        ((s.children.filter (·.kind = .column)).map fun child => (child, print child),
          (s.children.filter (·.kind ≠ .column)).map fun child => (child, print child)) := by
    rw [List.partition_eq_filter_filter, List.filter_map, List.filter_map]
    simp only [ne_eq, decide_not]
    rfl
  have hown : (print s.id).own = Digest.sha256 (ownBytes s) := by rw [h]; rfl
  have helement : (print s.id).element = Digest.sha256 ((print s.id).own.bytes ++
      (s.children.filter (·.kind = .column)).flatMap fun column =>
        bytes column.name ++ (print column).own.bytes) := by
    rw [hown, h]
    simp only [ofStatement, hcolumns, elementBytes, List.map_map, List.flatMap_map]
    rfl
  refine ⟨hown, helement, _, List.mergeSort_perm _ _, textsAscend_mergeSort ?_, ?_⟩
  · exact hdistinct.sublist (List.filter_sublist.map _)
  · rw [helement, hown, h]
    simp only [ofStatement, hcolumns, elementBytes, treeBytes, sortedChildren, List.map_map,
      List.flatMap_map, ← List.map_mergeSort]
    rfl

end Fingerprint

/-! ## Other orders -/

/-- A statement says the same as another one and has the same children, in whatever order, but for
columns, which among themselves are in the same one. -/
structure Statement.Reorders (s t : Statement) : Prop where
  id : t.id = s.id
  definition : t.definition = s.definition
  owner : t.owner = s.owner
  comment : t.comment = s.comment
  children : t.children.Perm s.children
  columns : t.children.filter (·.kind = .column) = s.children.filter (·.kind = .column)

instance (s t : Statement) : Decidable (s.Reorders t) :=
  decidable_of_iff (t.id = s.id ∧ t.definition = s.definition ∧ t.owner = s.owner ∧
      t.comment = s.comment ∧ t.children.Perm s.children ∧
      t.children.filter (·.kind = .column) = s.children.filter (·.kind = .column))
    ⟨fun ⟨hid, hdefinition, howner, hcomment, hchildren, hcolumns⟩ =>
        ⟨hid, hdefinition, howner, hcomment, hchildren, hcolumns⟩,
      fun h => ⟨h.id, h.definition, h.owner, h.comment, h.children, h.columns⟩⟩

/-- A statement is in its own order. -/
theorem Statement.Reorders.refl (s : Statement) : s.Reorders s :=
  ⟨rfl, rfl, rfl, rfl, .refl _, rfl⟩

/-- Fingerprints that follow the recursion are the same for a statement and for one that reorders
it, if they are for its children. -/
theorem Fingerprint.Follows.eq_of_reorders {s t : Statement} {print other : ObjectId → Fingerprint}
    (hs : Follows print s) (ht : Follows other t) (h : s.Reorders t)
    (hchildren : ∀ child ∈ s.children, other child = print child) : other s.id = print s.id := by
  have hbytes : ownBytes t = ownBytes s := by
    rw [ownBytes, ownBytes, Statement.kind, Statement.kind, h.id, h.definition, h.owner, h.comment]
  have hown : (other s.id).own = (print s.id).own := by
    rw [hs.own, ← h.id, ht.own, hbytes]
  have helement : (other s.id).element = (print s.id).element := by
    rw [hs.element, ← hown, ← h.id, ht.element, h.columns]
    refine congrArg (fun bytes => Digest.sha256 (_ ++ bytes))
      (List.flatMap_congr fun column hin => ?_)
    rw [hchildren column (List.mem_filter.1 hin).1]
  have htree : (other s.id).tree = (print s.id).tree := by
    obtain ⟨branches, hperm, hascend, htree⟩ := hs.tree
    obtain ⟨branches', hperm', hascend', htree'⟩ := ht.tree
    obtain rfl : branches' = branches := hascend'.eq_of_perm hascend
      (hperm'.trans ((h.children.filter _).trans hperm.symm))
    rw [htree, ← helement, ← h.id, htree']
    refine congrArg (fun bytes => Digest.sha256 (_ ++ bytes))
      (List.flatMap_congr fun branch hin => ?_)
    rw [hchildren branch (List.mem_filter.1 (hperm.mem_iff.1 hin)).1]
  cases hprint : print s.id
  cases hother : other s.id
  simp_all

namespace Snapshot

variable {snapshot a b : Snapshot} {s : Statement}

/-- A snapshot has the statements of another one, with children in whatever order, but for
columns. -/
def Rearranges (a b : Snapshot) : Prop :=
  ∀ s ∈ a.statements, ∃ t ∈ b.statements, s.Reorders t

instance (a b : Snapshot) : Decidable (a.Rearranges b) :=
  inferInstanceAs (Decidable (∀ s ∈ a.statements, ∃ t ∈ b.statements, s.Reorders t))

namespace WellFormed

/-- Fingerprints that follow the recursion are the same in a snapshot that rearranges another
one. -/
theorem eq_of_follows (ha : a.WellFormed) (h : a.Rearranges b)
    {print other : ObjectId → Fingerprint}
    (hprint : ∀ s ∈ a.statements, Fingerprint.Follows print s)
    (hother : ∀ t ∈ b.statements, Fingerprint.Follows other t) (hs : s ∈ a.statements) :
    other s.id = print s.id := by
  obtain ⟨id, hid⟩ : ∃ id, s.id = id := ⟨s.id, rfl⟩
  induction id using ha.down_induction generalizing s with
  | step id ih =>
    obtain ⟨t, ht, hreorders⟩ := h s hs
    refine (hprint s hs).eq_of_reorders (hother t ht) hreorders fun child hchild => ?_
    obtain ⟨c, hc, rfl, hparent⟩ := ha.listed s hs child hchild
    exact ih c (ha.mem_children.2 ⟨ha.get?_of_mem hc, hid ▸ hparent⟩) hc rfl

/-- The children of one statement have different texts. -/
theorem nodup_display (h : snapshot.WellFormed) (hs : s ∈ snapshot.statements) :
    (s.children.map (·.display)).Nodup := by
  have hchild : ∀ child ∈ s.children, child = s.id.child child.kind child.name := by
    intro child hchild
    obtain ⟨c, hc, rfl, hparent⟩ := h.listed s hs child hchild
    exact (h.owned c hc s.id hparent).2.1
  refine List.Nodup.map_on (fun c hc d hd hdisplay => ?_) (h.siblings s hs)
  rw [hchild c hc, hchild d hd] at hdisplay ⊢
  obtain ⟨hkind, hname⟩ := ObjectId.display_child_inj hdisplay
  rw [hkind, hname]

end WellFormed

end Snapshot

/-! ## Built snapshots -/

namespace Builder

variable {b : Builder} {snapshot : Snapshot}

section
variable (hb : b.Reachable) (hfinish : b.finish = .ok snapshot)
include hb hfinish

/-- In a built snapshot children stand behind their parents. -/
theorem childrenBehind_of_finish : Fingerprint.ChildrenBehind snapshot.statements := by
  have hwf := wellFormed_of_finish hb hfinish
  obtain ⟨f, hf, hstays⟩ := exists_map_of_finish hfinish
  have hfirst : snapshot.ParentsFirst := hb.parentsFirst.map hf fun s _ => hstays s
  exact fun before s rest hsplit child hchild => hfirst.mem_rest hwf hsplit hchild

/-- The pass over a built snapshot stores its fingerprints, whatever is stored at first. -/
theorem pass_eq_fingerprint (stored : ObjectId → Fingerprint) {s : Statement}
    (hs : s ∈ snapshot.statements) :
    Fingerprint.pass stored snapshot.statements s.id = snapshot.fingerprint s.id := by
  have hlookup := Fingerprint.lookup_table_eq_pass stored (childrenBehind_of_finish hb hfinish)
    (List.mem_map_of_mem (f := (·.id)) hs)
  obtain ⟨-, -, rfl⟩ := finish_eq_ok.1 hfinish
  rw [Snapshot.fingerprint, hlookup]
  rfl

/-- A turn of the pass over a built snapshot reads final fingerprints. -/
theorem pass_eq_fingerprint_of_mem (stored : ObjectId → Fingerprint) {before rest : List Statement}
    {id : ObjectId} (hsplit : snapshot.statements = before ++ rest) (hid : id ∈ rest.map (·.id)) :
    Fingerprint.pass stored rest id = snapshot.fingerprint id := by
  have hwf := wellFormed_of_finish hb hfinish
  have hnot : id ∉ before.map (·.id) := fun hin => by
    have hdistinct := hwf.distinct
    rw [hsplit, List.map_append] at hdistinct
    exact List.disjoint_of_nodup_append hdistinct hin hid
  obtain ⟨s, hs, rfl⟩ := List.mem_map.1 hid
  have hs : s ∈ snapshot.statements := hsplit ▸ List.mem_append_right before hs
  rw [← pass_eq_fingerprint hb hfinish stored hs, hsplit,
    Fingerprint.pass_append_of_not_mem stored hnot]

/-- The fingerprints of a built snapshot follow the recursion over its tree. -/
theorem follows_of_finish {s : Statement} (hs : s ∈ snapshot.statements) :
    Fingerprint.Follows snapshot.fingerprint s := by
  have hwf := wellFormed_of_finish hb hfinish
  refine Fingerprint.follows_of_eq (hwf.nodup_display hs) ?_
  obtain ⟨before, rest, hsplit⟩ := List.append_of_mem hs
  rw [← pass_eq_fingerprint_of_mem hb hfinish default hsplit (by simp), Fingerprint.pass_cons,
    Fingerprint.turn_self]
  refine congrArg (Fingerprint.ofStatement s) (List.map_congr_left fun child hchild => ?_)
  have hbehind := childrenBehind_of_finish hb hfinish before s rest hsplit child hchild
  rw [pass_eq_fingerprint_of_mem hb hfinish default
    (hsplit.trans (List.append_cons before s rest)) hbehind]

end

/-- **Fingerprints are taken by recursion.** The pass over a built snapshot reads nothing but final
fingerprints of children that have had their turn, and stores the fingerprints of the snapshot,
whatever is stored at first. These follow the recursion over the tree, and nothing else does. They
are the same in every built snapshot that rearranges this one. -/
theorem fingerprints_by_recursion (hb : b.Reachable) (hfinish : b.finish = .ok snapshot) :
    (∀ stored before s rest, snapshot.statements = before ++ s :: rest →
      (∀ child ∈ s.children, child ∈ rest.map (·.id) ∧
        Fingerprint.pass stored rest child = snapshot.fingerprint child) ∧
      Fingerprint.pass stored snapshot.statements s.id = snapshot.fingerprint s.id) ∧
    (∀ s ∈ snapshot.statements, Fingerprint.Follows snapshot.fingerprint s) ∧
    (∀ print : ObjectId → Fingerprint,
      (∀ s ∈ snapshot.statements, Fingerprint.Follows print s) →
        ∀ s ∈ snapshot.statements, print s.id = snapshot.fingerprint s.id) ∧
    ∀ c other, Reachable c → c.finish = .ok other → snapshot.Rearranges other →
      ∀ s ∈ snapshot.statements, other.fingerprint s.id = snapshot.fingerprint s.id := by
  have hwf := wellFormed_of_finish hb hfinish
  have hfollows : ∀ s ∈ snapshot.statements, Fingerprint.Follows snapshot.fingerprint s :=
    fun s hs => follows_of_finish hb hfinish hs
  refine ⟨fun stored before s rest hsplit => ⟨fun child hchild => ?_, ?_⟩, hfollows,
    fun print hprint s hs => ?_, fun c other hc hfinish' hrearranges s hs => ?_⟩
  · have hbehind := childrenBehind_of_finish hb hfinish before s rest hsplit child hchild
    refine ⟨hbehind, ?_⟩
    exact pass_eq_fingerprint_of_mem hb hfinish stored
      (hsplit.trans (List.append_cons before s rest)) hbehind
  · exact pass_eq_fingerprint hb hfinish stored (by simp [hsplit])
  · exact hwf.eq_of_follows (fun s hs => ⟨s, hs, .refl s⟩) hfollows hprint hs
  · exact hwf.eq_of_follows hrearranges hfollows (fun t ht => follows_of_finish hc hfinish' ht) hs

end Builder

namespace Builder.TwoOrders

/-- The schema. -/
def schema : ObjectId := ⟨.schema, ["a"]⟩

/-- The table with columns and an index. -/
def table : ObjectId := .table "a" "t"

/-- A column of the table. -/
def column (name : String) : Call := .add table name (.column { dataType := "int" })

/-- An index of the table. -/
def index : Call := .add table "i" (.index { columns := ["x"] })

/-- The builder of a schema with a table after which another one stands. -/
def columnsFirst : Builder := (new .postgres Sql.read).run
  [.add .database "a" (.schema {}), .add schema "t" (.table {}), column "x", column "y", index,
    .add schema "u" (.table {}), .setComment (.table "a" "u") "last"]

/-- The builder of the same tables in the other order, with the index between the columns. -/
def indexBetween : Builder := (new .postgres Sql.read).run
  [.add .database "a" (.schema {}), .add schema "u" (.table {}),
    .setComment (.table "a" "u") "last", .add schema "t" (.table {}), column "x", index,
    column "y"]

/-- The snapshot that a builder is finished to. -/
def built (b : Builder) : Snapshot := ⟨.postgres, b.linked, Fingerprint.table b.linked⟩

/-- The root has the same fingerprint in both orders. -/
theorem database_alike :
    columnsFirst.finish = .ok (built columnsFirst) ∧
      indexBetween.finish = .ok (built indexBetween) ∧
      (built columnsFirst).children schema ≠ (built indexBetween).children schema ∧
      (built columnsFirst).children table ≠ (built indexBetween).children table ∧
      (built indexBetween).fingerprint .database = (built columnsFirst).fingerprint .database := by
  have hfinish : columnsFirst.finish = .ok (built columnsFirst) := rfl
  have hother : indexBetween.finish = .ok (built indexBetween) := rfl
  obtain ⟨-, -, -, halike⟩ :=
    fingerprints_by_recursion ((Reachable.new .postgres Sql.read).run _) hfinish
  have hroot : ∃ s ∈ (built columnsFirst).statements, s.id = .database := by decide +kernel
  obtain ⟨s, hs, hid⟩ := hroot
  refine ⟨hfinish, hother, by decide +kernel, by decide +kernel, ?_⟩
  rw [← hid]
  exact halike _ _ ((Reachable.new .postgres Sql.read).run _) hother (by decide +kernel) s hs

end Builder.TwoOrders

end SchemaMigration
