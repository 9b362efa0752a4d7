import Mathlib.Data.List.Basic
import Mathlib.Data.List.Perm.Basic
import SchemaMigration.Proofs.Object.DefinitionDocument
import SchemaMigration.Snapshot.Fingerprint

/-!
# What the bytes of fingerprints say

The bytes from which digests are taken say all that they stand for, with two exceptions. An owner
may go on with what separates it from a comment, so that the two cannot be told from one owner
(`Statement.remarks`); the own bytes determine everything else (`Fingerprint.ownBytes_eq_iff`). And
a name is followed by a digest with nothing between them, so that it may go on with the bytes of the
digest (`Fingerprint.RunsOn`); apart from that the entries of an element and of a tree are
determined (`Fingerprint.elementBytes_inj`, `Fingerprint.treeBytes_inj`).
-/

namespace SchemaMigration

/-- What stands in front of the first of a separator is determined. -/
theorem append_cons_inj_of_not_mem {α : Type} {c : α} {a b x y : List α} (ha : c ∉ a) (hb : c ∉ b)
    (h : a ++ c :: x = b ++ c :: y) : a = b ∧ x = y := by
  induction a generalizing b with
  | nil =>
    cases b with
    | nil => exact ⟨rfl, (List.cons.inj h).2⟩
    | cons d b => exact absurd ((List.cons.inj h).1 ▸ List.mem_cons_self) hb
  | cons d a ih =>
    cases b with
    | nil => exact absurd ((List.cons.inj h).1 ▸ List.mem_cons_self) ha
    | cons e b =>
      obtain ⟨heq, hxy⟩ := ih (fun hc => ha (List.mem_cons_of_mem _ hc))
        (fun hc => hb (List.mem_cons_of_mem _ hc)) (List.cons.inj h).2
      exact ⟨by rw [(List.cons.inj h).1, heq], hxy⟩

/-- A keyword ends with the first character that is in no keyword. -/
theorem ObjectKind.keyword_append_inj {a b : ObjectKind} {c : Char} {x y : List Char}
    (hc : ∀ kind ∈ all, c ∉ kind.keyword.toList)
    (h : a.keyword.toList ++ c :: x = b.keyword.toList ++ c :: y) : a = b ∧ x = y := by
  obtain ⟨hkeyword, hrest⟩ := append_cons_inj_of_not_mem (hc a a.mem_all) (hc b b.mem_all) h
  refine ⟨?_, hrest⟩
  cases a <;> cases b <;> first | rfl | exact absurd hkeyword (by decide)

/-! ## Own bytes -/

namespace Statement

/-- The owner and the comment as far as they can be told from each other: an owner with a comment
may as well be a single owner that holds the separator and the comment. -/
def remarks (s : Statement) : Option String × Option String :=
  match s.owner, s.comment with
  | some owner, some comment => (some (owner ++ "\x00comment\x00" ++ comment), none)
  | owner, comment => (owner, comment)

/-- Owners without a zero character can be told from comments. -/
theorem eq_of_remarks_eq {s t : Statement} (hs : ∀ owner ∈ s.owner, '\x00' ∉ owner.toList)
    (ht : ∀ owner ∈ t.owner, '\x00' ∉ owner.toList) (h : s.remarks = t.remarks) :
    s.owner = t.owner ∧ s.comment = t.comment := by
  have hzero : ∀ owner comment : String,
      '\x00' ∈ (owner ++ "\x00comment\x00" ++ comment).toList := by simp
  unfold remarks at h
  split at h <;> split at h
  · next howner hcomment _ _ owner comment howner' hcomment' =>
    have hchars := congrArg String.toList (Option.some.inj (Prod.mk.inj h).1)
    simp only [String.toList_append, List.append_assoc] at hchars
    obtain ⟨heq, hrest⟩ := append_cons_inj_of_not_mem (hs _ howner) (ht _ howner') hchars
    rw [howner, hcomment, howner', hcomment', String.toList_inj.1 heq,
      String.toList_inj.1 (List.append_cancel_left hrest)]
    exact ⟨rfl, rfl⟩
  · exact absurd (hzero _ _) (ht _ (Prod.mk.inj h).1.symm)
  · exact absurd (hzero _ _) (hs _ (Prod.mk.inj h).1)
  · exact ⟨(Prod.mk.inj h).1, (Prod.mk.inj h).2⟩

end Statement

namespace Fingerprint

/-- The bytes of a text. -/
theorem bytes_eq (text : String) : bytes text = text.toByteArray.data.toList := rfl

/-- The bytes of texts behind each other. -/
@[simp]
theorem bytes_append (a b : String) : bytes (a ++ b) = bytes a ++ bytes b := by
  simp [bytes_eq]

/-- Different texts have different bytes. -/
theorem bytes_injective : Function.Injective bytes := fun a b h => by
  rw [bytes_eq, bytes_eq, Array.toList_inj] at h
  exact String.toByteArray_inj.1 (ByteArray.ext h)

/-- An optional text under a tag, with a zero character behind both. -/
def tagText (tag : String) : Option String → String
  | some value => tag ++ "\x00" ++ value ++ "\x00"
  | none => ""

/-- An optional text under a tag is hashed as a text. -/
theorem tagged_eq (tag : String) (value : Option String) :
    tagged tag value = bytes (tagText tag value) := by
  cases value with
  | none => exact (bytes_eq "").symm
  | some value =>
    have hzero : bytes "\x00" = [0] := bytes_eq "\x00"
    simp [tagText, tagged, hzero]

/-- An owner and a comment behind each other. -/
def remarkText (remarks : Option String × Option String) : String :=
  tagText "owner" remarks.1 ++ tagText "comment" remarks.2

/-- The remarks of a statement are written like its owner and its comment. -/
theorem remarkText_remarks (s : Statement) :
    remarkText s.remarks = remarkText (s.owner, s.comment) := by
  unfold Statement.remarks
  split
  · next howner hcomment =>
    rw [howner, hcomment, ← String.toList_inj]
    simp [remarkText, tagText]
  · rfl

/-- What stands behind a definition is no digit. -/
theorem ends_remarkText (remarks : Option String × Option String) :
    Json.Ends (remarkText remarks).toList := by
  obtain ⟨owner, comment⟩ := remarks
  cases owner <;> cases comment <;> simp [Json.Ends, remarkText, tagText]

/-- Different remarks are written differently. -/
theorem remarks_eq_of_remarkText_eq {s t : Statement}
    (h : remarkText s.remarks = remarkText t.remarks) : s.remarks = t.remarks := by
  -- They are an owner or a comment, but not both.
  have hform : ∀ s : Statement, s.remarks = (none, none) ∨
      (∃ owner, s.remarks = (some owner, none)) ∨ ∃ comment, s.remarks = (none, some comment) := by
    intro s
    unfold Statement.remarks
    cases s.owner <;> cases s.comment <;> simp
  obtain hs | ⟨owner, hs⟩ | ⟨comment, hs⟩ := hform s <;>
  obtain ht | ⟨owner', ht⟩ | ⟨comment', ht⟩ := hform t <;>
  rw [hs, ht] at h ⊢ <;>
  have hchars := congrArg String.toList h <;>
  simp [remarkText, tagText] at hchars <;>
  rw [String.toList_inj.1 hchars]

/-- Own bytes are those of a text. -/
theorem ownBytes_eq (s : Statement) : ownBytes s =
    bytes (s.kind.keyword ++ (s.definition.text ++ remarkText s.remarks)) := by
  rw [remarkText_remarks, ownBytes, tagged_eq, tagged_eq]
  simp [remarkText]

/-- The text of a definition begins with a brace. -/
theorem exists_text_eq_cons (definition : Definition) :
    ∃ rest, definition.text.toList = '\x7b' :: rest := by
  simp only [Definition.text, Json.print, String.toList_ofList, Definition.codec, Json.record,
    Json.chars, List.cons_append]
  exact ⟨_, rfl⟩

/-- **Own bytes say all of a statement**: its kind, its definition and its remarks. -/
theorem ownBytes_eq_iff {s t : Statement} : ownBytes s = ownBytes t ↔
    s.kind = t.kind ∧ s.definition = t.definition ∧ s.remarks = t.remarks := by
  rw [ownBytes_eq, ownBytes_eq]
  constructor
  · intro h
    have htext := bytes_injective h
    have hchars := congrArg String.toList htext
    obtain ⟨_, hs⟩ := exists_text_eq_cons s.definition
    obtain ⟨_, ht⟩ := exists_text_eq_cons t.definition
    simp only [String.toList_append, hs, ht, List.cons_append] at hchars
    obtain ⟨hkind, -⟩ := ObjectKind.keyword_append_inj (by decide) hchars
    rw [hkind, String.append_right_inj] at htext
    obtain ⟨hdefinition, hremarks⟩ := Definition.text_append_inj (ends_remarkText _)
      (ends_remarkText _) htext
    exact ⟨hkind, hdefinition, remarks_eq_of_remarkText_eq hremarks⟩
  · rintro ⟨hkind, hdefinition, hremarks⟩
    rw [hkind, hdefinition, hremarks]

/-! ## Entries -/

/-- The name of the second entry goes on, behind that of the first one, with bytes of its digest. -/
def RunsOn (a b : String × Digest) : Prop :=
  ∃ more, more ≠ [] ∧ bytes b.1 = bytes a.1 ++ more ∧ (more <+: a.2.bytes ∨ a.2.bytes <+: more)

/-- Among the entries of two lists, the name of one goes on where that of another one ends. -/
def Ambiguous (as bs : List (String × Digest)) : Prop :=
  ∃ a ∈ as, ∃ b ∈ bs, RunsOn a b ∨ RunsOn b a

/-- The digests of entries are complete. -/
def Complete (entries : List (String × Digest)) : Prop :=
  ∀ entry ∈ entries, entry.2.bytes.length = 32

/-- An entry and what follows it are determined, unless its name runs on. -/
theorem entry_append_inj {a b : String × Digest} {x y : List UInt8}
    (ha : a.2.bytes.length = 32) (hb : b.2.bytes.length = 32)
    (h : bytes a.1 ++ a.2.bytes ++ x = bytes b.1 ++ b.2.bytes ++ y) :
    (a = b ∧ x = y) ∨ RunsOn a b ∨ RunsOn b a := by
  -- If one name goes on behind the other, it does so with bytes of the digest that stands there.
  have hruns : ∀ {a b : String × Digest} {x y more : List UInt8}, more ≠ [] →
      bytes b.1 = bytes a.1 ++ more → bytes a.1 ++ a.2.bytes ++ x = bytes b.1 ++ b.2.bytes ++ y →
      RunsOn a b := by
    intro a b x y more hmore hname h
    rw [hname, List.append_assoc, List.append_assoc, List.append_assoc] at h
    have hrest := List.append_cancel_left h
    exact ⟨more, hmore, hname, List.prefix_or_prefix_of_prefix ⟨_, hrest.symm⟩ ⟨_, rfl⟩⟩
  have hprefixA : bytes a.1 <+: bytes a.1 ++ a.2.bytes ++ x := ⟨a.2.bytes ++ x, by simp⟩
  have hprefixB : bytes b.1 <+: bytes a.1 ++ a.2.bytes ++ x := ⟨b.2.bytes ++ y, by simp [h]⟩
  by_cases hname : bytes a.1 = bytes b.1
  · rw [hname, List.append_assoc, List.append_assoc] at h
    obtain ⟨hdigest, hrest⟩ := List.append_inj (List.append_cancel_left h) (ha.trans hb.symm)
    exact .inl ⟨Prod.ext (bytes_injective hname) (congrArg Digest.mk hdigest), hrest⟩
  · refine .inr ((List.prefix_or_prefix_of_prefix hprefixA hprefixB).imp ?_ ?_)
    · rintro ⟨more, hmore⟩
      exact hruns (fun hnil => hname (by simpa [hnil] using hmore)) hmore.symm h
    · rintro ⟨more, hmore⟩
      exact hruns (fun hnil => hname (by simpa [hnil] using hmore.symm)) hmore.symm h.symm

/-- Entries behind each other are determined, unless a name runs on. -/
theorem entries_inj {as bs : List (String × Digest)} (ha : Complete as) (hb : Complete bs)
    (h : as.flatMap (fun entry => bytes entry.1 ++ entry.2.bytes) =
      bs.flatMap fun entry => bytes entry.1 ++ entry.2.bytes) : as = bs ∨ Ambiguous as bs := by
  -- An entry has bytes, if only those of its digest.
  have hne : ∀ {a : String × Digest} {x : List UInt8}, a.2.bytes.length = 32 →
      bytes a.1 ++ a.2.bytes ++ x ≠ [] := by
    intro a x ha hnil
    rw [(List.append_eq_nil_iff.1 (List.append_eq_nil_iff.1 hnil).1).2] at ha
    cases ha
  induction as generalizing bs with
  | nil =>
    cases bs with
    | nil => exact .inl rfl
    | cons b bs => exact absurd h.symm (hne (hb b List.mem_cons_self))
  | cons a as ih =>
    cases bs with
    | nil => exact absurd h (hne (ha a List.mem_cons_self))
    | cons b bs =>
      rcases entry_append_inj (ha a List.mem_cons_self) (hb b List.mem_cons_self) h with
        ⟨rfl, hrest⟩ | hruns
      · refine (ih (fun entry hin => ha entry (List.mem_cons_of_mem _ hin))
          (fun entry hin => hb entry (List.mem_cons_of_mem _ hin)) hrest).imp
          (congrArg (a :: ·)) ?_
        rintro ⟨c, hc, d, hd, hruns⟩
        exact ⟨c, List.mem_cons_of_mem _ hc, d, List.mem_cons_of_mem _ hd, hruns⟩
      · exact .inr ⟨a, List.mem_cons_self, b, List.mem_cons_self, hruns⟩

/-- **The bytes of an element say all of it**: its own digest, and its columns in their order with
their digests, unless the name of a column runs on. -/
theorem elementBytes_inj {own own' : Digest} {columns columns' : List (String × Digest)}
    (hown : own.bytes.length = 32) (hown' : own'.bytes.length = 32) (hcolumns : Complete columns)
    (hcolumns' : Complete columns') (h : elementBytes own columns = elementBytes own' columns') :
    own = own' ∧ (columns = columns' ∨ Ambiguous columns columns') := by
  obtain ⟨hdigest, hrest⟩ := List.append_inj h (hown.trans hown'.symm)
  exact ⟨congrArg Digest.mk hdigest, entries_inj hcolumns hcolumns' hrest⟩

/-- **The bytes of a tree say all of it**: the digest of its element, and its branches with their
digests in any order, unless the text of a branch runs on. -/
theorem treeBytes_inj {element element' : Digest} {branches branches' : List (String × Digest)}
    (helement : element.bytes.length = 32) (helement' : element'.bytes.length = 32)
    (hbranches : Complete branches) (hbranches' : Complete branches')
    (h : treeBytes element branches = treeBytes element' branches') :
    element = element' ∧ (branches.Perm branches' ∨ Ambiguous branches branches') := by
  obtain ⟨hdigest, hrest⟩ := List.append_inj h (helement.trans helement'.symm)
  have hperm : ∀ branches, (sortedChildren branches).Perm branches := fun branches =>
    List.mergeSort_perm ..
  refine ⟨congrArg Digest.mk hdigest, ?_⟩
  rcases entries_inj (fun entry hin => hbranches entry ((hperm _).mem_iff.1 hin))
    (fun entry hin => hbranches' entry ((hperm _).mem_iff.1 hin)) hrest with heq | hruns
  · exact .inl ((hperm branches).symm.trans (heq ▸ hperm branches'))
  · obtain ⟨a, ha, b, hb, hruns⟩ := hruns
    exact .inr ⟨a, (hperm _).mem_iff.1 ha, b, (hperm _).mem_iff.1 hb, hruns⟩

end Fingerprint

/-! ## Branches of one owner -/

/-- What is joined behind the same texts ends with the last text. -/
theorem Text.exists_join_concat (sep : String) (texts : List String) :
    ∃ front, ∀ last, join sep (texts ++ [last]) = front ++ last := by
  by_cases hnil : texts = []
  · exact ⟨"", fun last => by rw [hnil, join, List.nil_append, String.intercalate_singleton,
      String.empty_append]⟩
  · exact ⟨join sep texts ++ sep, fun last => by
      rw [join, String.intercalate_append_of_ne_nil hnil (by simp), String.intercalate_singleton,
        join]⟩

/-- How a child, by its kind, its name and the digest of its tree, enters the tree of its owner. -/
def Fingerprint.branch (owner : ObjectId) (child : (ObjectKind × String) × Digest) :
    String × Digest :=
  ((owner.child child.1.1 child.1.2).display, child.2)

/-- The children of one owner have different texts. -/
theorem ObjectId.display_child_inj {owner : ObjectId} {kind kind' : ObjectKind}
    {name name' : String}
    (h : (owner.child kind name).display = (owner.child kind' name').display) :
    kind = kind' ∧ name = name' := by
  obtain ⟨front, hfront⟩ := Text.exists_join_concat "." owner.path
  have hdisplay : ∀ kind name, (owner.child kind name).display =
      kind.keyword ++ " " ++ (front ++ name) := by
    intro kind name
    unfold ObjectId.display
    split
    · next hnil => simp at hnil
    · rw [qualifiedName, child_path, hfront, child_kind]
  rw [hdisplay, hdisplay] at h
  have hchars := congrArg String.toList h
  simp only [String.toList_append, List.append_assoc] at hchars
  obtain ⟨hkind, hrest⟩ := ObjectKind.keyword_append_inj (by decide) hchars
  exact ⟨hkind, String.toList_inj.1 (List.append_cancel_left hrest)⟩

/-- **The bytes of a tree determine the children of its owner**: their identities with the digests
of their trees, in any order, unless the text of a child runs on. -/
theorem Fingerprint.treeBytes_children_inj {owner : ObjectId} {element element' : Digest}
    {children children' : List ((ObjectKind × String) × Digest)}
    (helement : element.bytes.length = 32) (helement' : element'.bytes.length = 32)
    (hchildren : ∀ child ∈ children, child.2.bytes.length = 32)
    (hchildren' : ∀ child ∈ children', child.2.bytes.length = 32)
    (h : treeBytes element (children.map (branch owner)) =
      treeBytes element' (children'.map (branch owner))) :
    element = element' ∧ (children.Perm children' ∨
      Ambiguous (children.map (branch owner)) (children'.map (branch owner))) := by
  have hinjective : Function.Injective (branch owner) := by
    rintro ⟨⟨kind, name⟩, digest⟩ ⟨⟨kind', name'⟩, digest'⟩ heq
    obtain ⟨rfl, rfl⟩ := ObjectId.display_child_inj (Prod.mk.inj heq).1
    exact congrArg _ (Prod.mk.inj heq).2
  have hcomplete : ∀ {children : List ((ObjectKind × String) × Digest)},
      (∀ child ∈ children, child.2.bytes.length = 32) → Complete (children.map (branch owner)) := by
    intro children hchildren entry hentry
    obtain ⟨child, hchild, rfl⟩ := List.mem_map.1 hentry
    exact hchildren child hchild
  obtain ⟨heq, hbranches⟩ := treeBytes_inj helement helement' (hcomplete hchildren)
    (hcomplete hchildren') h
  exact ⟨heq, hbranches.imp_left (List.map_perm_map_iff hinjective).1⟩

end SchemaMigration
