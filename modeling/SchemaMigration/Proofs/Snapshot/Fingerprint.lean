import SchemaMigration.Proofs.Snapshot.Builder

/-!
# Fingerprints of built snapshots

Fingerprints are taken in one pass from the last statement to the first. In a snapshot that was
built every child stands behind its parent (`Snapshot.ParentsFirst`), so the pass has the
fingerprints of all children when it comes to a statement, and each fingerprint is made of the
statement and of the final fingerprints of its children (`Snapshot.Printed`). The element of a
statement is told by its content and that of its columns (`Snapshot.Printed.element_eq`).
-/

namespace SchemaMigration

variable {snapshot : Snapshot} {id : ObjectId} {s : Statement}

/-! ## Parents stand first -/

namespace Snapshot

/-- No statement lists one that stands before it. -/
def ParentsFirst (snapshot : Snapshot) : Prop :=
  snapshot.statements.Pairwise fun earlier later => earlier.id ∉ later.children

/-- Statements in the same places stand in the same order. -/
theorem ParentsFirst.map {a b : Snapshot} {f : Statement → Statement} (ha : a.ParentsFirst)
    (hb : b.statements = a.statements.map f) (hf : ∀ s ∈ a.statements, s.Stays (f s)) :
    b.ParentsFirst := by
  rw [ParentsFirst, hb, List.pairwise_map]
  refine ha.imp_of_mem fun {s t} hs ht hnot => ?_
  rwa [(hf s hs).id, (hf t ht).children]

/-- In a tree whose parents stand first, every child stands behind its parent. -/
theorem ParentsFirst.mem_rest (h : snapshot.ParentsFirst) (hwf : snapshot.WellFormed)
    {before rest : List Statement} (hsplit : snapshot.statements = before ++ s :: rest)
    {child : ObjectId} (hchild : child ∈ s.children) : child ∈ rest.map (·.id) := by
  have hs : s ∈ snapshot.statements := by simp [hsplit]
  obtain ⟨t, ht, rfl, hparent⟩ := hwf.listed s hs child hchild
  rw [hsplit, List.mem_append, List.mem_cons] at ht
  rw [ParentsFirst, hsplit, List.pairwise_append] at h
  rcases ht with ht | rfl | ht
  · exact absurd hchild (h.2.2 t ht s List.mem_cons_self)
  · exact absurd rfl (hwf.ne_of_parent? (parent?_eq_some.2 ⟨t, hwf.get?_of_mem hs, hparent⟩))
  · exact List.mem_map_of_mem ht

end Snapshot

namespace Builder

variable {b next : Builder}

/-- What is added stands behind everything else. -/
theorem parentsFirst_of_add {parent id : ObjectId} {name : String} {definition : Definition}
    (hb : b.tree.ParentsFirst) (h : b.add parent name definition = .ok (id, next)) :
    next.tree.ParentsFirst := by
  unfold add at h
  dsimp only at h
  split at h
  · cases h
  split at h
  · cases h
  split at h
  · cases h
  next hfresh =>
  obtain ⟨rfl, rfl⟩ := Prod.mk.inj (Except.ok.inj h)
  have hnot : ∀ s ∈ b.statements,
      s.id ≠ parent.child definition.kind (definition.identityName name) := by
    rintro s hs heq
    exact hfresh (List.any_eq_true.2 ⟨s, hs, beq_iff_eq.2 heq⟩)
  refine List.pairwise_append.2 ⟨?_, List.pairwise_singleton _ _, fun s _ t ht => ?_⟩
  · refine List.pairwise_map.2 (List.Pairwise.imp_of_mem ?_ hb)
    intro s t hs _ hst
    -- The parent lists the new identity, which no statement before had.
    have hadded := hnot s hs
    split <;> split <;> simp_all
  · rw [List.mem_singleton.1 ht]
    exact List.not_mem_nil

/-- In a builder parents always stand first. -/
theorem Reachable.parentsFirst (h : b.Reachable) : b.tree.ParentsFirst :=
  h.induct Snapshot.ParentsFirst.map (List.pairwise_singleton _ _) parentsFirst_of_add

end Builder

/-! ## The pass over the statements -/

/-- What is looked up behind an entry of another identity. -/
theorem lookup_cons_of_ne {α : Type} {key : ObjectId} {value : α} {entries : List (ObjectId × α)}
    (h : id ≠ key) : ((key, value) :: entries).lookup id = entries.lookup id := by
  rw [List.lookup_cons, beq_eq_false_iff_ne.2 h]

/-- The pass finds the fingerprints of all statements that it has come by. -/
theorem Fingerprint.lookup_table_isSome {statements : List Statement}
    (h : id ∈ statements.map (·.id)) : ((table statements).lookup id).isSome = true := by
  induction statements with
  | nil => cases h
  | cons first rest ih =>
    rw [table]
    by_cases heq : id = first.id
    · rw [heq, List.lookup_cons_self]
      rfl
    · rw [lookup_cons_of_ne heq]
      exact ih ((List.mem_cons.1 h).resolve_left heq)

/-- The children of a statement with their fingerprints in a table. -/
def Fingerprint.childrenIn (known : List (ObjectId × Fingerprint)) (s : Statement) :
    List (ObjectId × Fingerprint) :=
  s.children.filterMap fun child => (known.lookup child).map (child, ·)

/-- If every child stands behind its parent, the fingerprint of a statement is made of those that
its children have in the end. -/
theorem Fingerprint.lookup_table {statements : List Statement}
    (hdistinct : (statements.map (·.id)).Nodup)
    (hbehind : ∀ before s rest, statements = before ++ s :: rest →
      ∀ child ∈ s.children, child ∈ rest.map (·.id)) (hs : s ∈ statements) :
    (table statements).lookup s.id = some (ofStatement s (childrenIn (table statements) s)) := by
  induction statements with
  | nil => cases hs
  | cons first rest ih =>
    obtain ⟨hfirst, hdistinct⟩ := List.nodup_cons.1 hdistinct
    have hchildren : ∀ t ∈ first :: rest, childrenIn (table (first :: rest)) t =
        childrenIn (table rest) t := by
      intro t ht
      refine List.filterMap_congr fun child hchild => ?_
      obtain ⟨before, after, hsplit⟩ := List.append_of_mem ht
      have hin : child ∈ rest.map (·.id) := by
        have hlater := hbehind before t after hsplit child hchild
        cases before with
        | nil => exact (List.cons.inj hsplit).2 ▸ hlater
        | cons _ before =>
          have hrest : rest = before ++ t :: after := (List.cons.inj hsplit).2
          rw [hrest, List.map_append, List.map_cons]
          exact List.mem_append_right _ (List.mem_cons_of_mem _ hlater)
      rw [table, lookup_cons_of_ne (by rintro rfl; exact hfirst hin)]
    rw [hchildren s hs]
    rcases List.mem_cons.1 hs with rfl | hs
    · rw [table, List.lookup_cons_self]
      rfl
    · have hne : s.id ≠ first.id := fun heq => hfirst (List.mem_map.2 ⟨s, hs, heq⟩)
      rw [table, lookup_cons_of_ne hne]
      exact ih hdistinct (fun before s after hsplit => hbehind (first :: before) s after
        (congrArg (first :: ·) hsplit)) hs

/-! ## Fingerprints in snapshots -/

namespace Snapshot

/-- The fingerprint of each statement is made of the statement and the fingerprints of its
children. -/
def Printed (snapshot : Snapshot) : Prop :=
  ∀ id s, snapshot.get? id = some s → snapshot.fingerprint id =
    .ofStatement s
      ((snapshot.children id).map fun child => (child.id, snapshot.fingerprint child.id))

/-- Every snapshot that is finished has its fingerprints. -/
theorem printed_of_finish {b : Builder} (h : b.Reachable) (hfinish : b.finish = .ok snapshot) :
    snapshot.Printed := by
  have hwf := Builder.wellFormed_of_finish h hfinish
  have hfirst : snapshot.ParentsFirst := by
    obtain ⟨f, hf, hstays⟩ := Builder.exists_map_of_finish hfinish
    exact h.parentsFirst.map hf fun s _ => hstays s
  have htable : snapshot.fingerprints = Fingerprint.table snapshot.statements := by
    unfold Builder.finish at hfinish
    split at hfinish
    · cases hfinish
    · split at hfinish
      · cases hfinish
      · rw [← Except.ok.inj hfinish]
  intro id s hs
  obtain ⟨hmem, rfl⟩ := get?_some hs
  have hlookup := Fingerprint.lookup_table hwf.distinct
    (fun _ _ _ hsplit _ => hfirst.mem_rest hwf hsplit) hmem
  rw [← htable] at hlookup
  have hchildren : Fingerprint.childrenIn snapshot.fingerprints s =
      (snapshot.children s.id).map fun child => (child.id, snapshot.fingerprint child.id) := by
    have hown : Statements.get? snapshot.statements s.id = some s := hs
    rw [children, Statements.children, hown, List.map_filterMap]
    refine List.filterMap_congr fun child hchild => ?_
    -- A child has a statement, and its fingerprint is in the table.
    obtain ⟨t, ht, rfl, -⟩ := hwf.listed s hmem child hchild
    have hget : Statements.get? snapshot.statements t.id = some t := hwf.get?_of_mem ht
    obtain ⟨print, hprint⟩ := Option.isSome_iff_exists.1
      (Fingerprint.lookup_table_isSome (List.mem_map_of_mem (f := (·.id)) ht))
    rw [← htable] at hprint
    rw [hget, hprint]
    simp [fingerprint, hprint]
  rw [← hchildren]
  simp [fingerprint, hlookup]

/-! ## What fingerprints are made of -/

/-- The names of the columns of an object in their order, with their own digests. -/
def columnPrints (snapshot : Snapshot) (id : ObjectId) : List (String × Digest) :=
  (snapshot.columns id).map fun column => (column.id.name, (snapshot.fingerprint column.id).own)

/-- The texts of the other children of an object, with the digests of their trees. -/
def branchPrints (snapshot : Snapshot) (id : ObjectId) : List (String × Digest) :=
  ((snapshot.children id).filter (·.id.kind ≠ .column)).map fun child =>
    (child.id.display, (snapshot.fingerprint child.id).tree)

namespace Printed

variable (h : snapshot.Printed) (hs : snapshot.get? id = some s)
include h hs

/-- The own digest of a statement is that of its content. -/
theorem own_eq : (snapshot.fingerprint id).own = Digest.sha256 (Fingerprint.ownBytes s) := by
  rw [h id s hs]
  rfl

/-- The digest of an element is made of its own and those of its columns in their order. -/
theorem element_eq : (snapshot.fingerprint id).element = Digest.sha256
    (Fingerprint.elementBytes (snapshot.fingerprint id).own (snapshot.columnPrints id)) := by
  have hcolumns : snapshot.columnPrints id =
      (((snapshot.children id).map fun child => (child.id, snapshot.fingerprint child.id)).filter
        fun child => child.1.kind = .column).map fun child => (child.1.name, child.2.own) := by
    rw [List.filter_map, List.map_map]
    rfl
  rw [h.own_eq hs, h id s hs, hcolumns]
  simp only [Fingerprint.ofStatement, List.partition_eq_filter_filter]

/-- The digest of a tree is made of that of its element and those of its branches. -/
theorem tree_eq : (snapshot.fingerprint id).tree = Digest.sha256
    (Fingerprint.treeBytes (snapshot.fingerprint id).element (snapshot.branchPrints id)) := by
  have hbranches : snapshot.branchPrints id =
      (((snapshot.children id).map fun child => (child.id, snapshot.fingerprint child.id)).filter
        fun child => !decide (child.1.kind = .column)).map
          fun child => (child.1.display, child.2.tree) := by
    rw [List.filter_map, List.map_map, branchPrints]
    simp only [ne_eq, decide_not]
    rfl
  rw [h id s hs, hbranches]
  simp only [Fingerprint.ofStatement, List.partition_eq_filter_filter]
  rfl

end Printed

end Snapshot

end SchemaMigration
