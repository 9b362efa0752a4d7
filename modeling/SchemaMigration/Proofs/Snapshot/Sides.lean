import SchemaMigration.Proofs.Snapshot.Tree

/-!
# Two snapshots side by side

An object is known by its kind and its path, and so is its parent, up to the kind of the parent:
only indexes and triggers may stand under a table as well as under a view. So what two snapshots
both hold stands under the same parent in both, unless it is a sub-element whose parents are a table
here and a view there (`Snapshot.TablesApart.parent?_of_parent?`). What one snapshot holds and the
other one does not stands under a branch that leaves the part in common
(`Snapshot.WellFormed.exists_branch`), and nothing on that branch has the same parent on both sides
(`Snapshot.WellFormed.parent?_ne_of_branch`).
-/

namespace SchemaMigration

/-! ## Owners by kind -/

/-- What is no sub-element can be owned by one kind only. -/
theorem ObjectKind.owner_unique {kind a b : ObjectKind} (hsub : kind.isSubElement = false)
    (ha : kind.canBeUnder a = true) (hb : kind.canBeUnder b = true) : a = b := by
  cases kind <;> cases hsub <;> cases a <;> cases ha <;> cases b <;> cases hb <;> rfl

/-- Columns and constraints stand under tables. -/
theorem ObjectKind.eq_table_of_canBeUnder {kind owner : ObjectKind}
    (hkind : kind = .column ∨ kind = .constraint) (h : kind.canBeUnder owner = true) :
    owner = .table := by
  rcases hkind with rfl | rfl <;> cases owner <;> cases h <;> rfl

/-- An identity is its kind and its path. -/
theorem ObjectId.eq_of_kind_path {a b : ObjectId} (hkind : a.kind = b.kind)
    (hpath : a.path = b.path) : a = b := by
  cases a
  cases b
  exact congr (congrArg ObjectId.mk hkind) hpath

namespace Snapshot

variable {snapshot : Snapshot} {id owner : ObjectId}

/-! ## Chains of owners -/

/-- What owns something is no sub-element. -/
theorem WellFormed.not_isSubElement_of_owns (h : snapshot.WellFormed)
    (howns : snapshot.Owns owner id) : owner.kind.isSubElement = false := by
  induction howns using Relation.TransGen.head_induction_on with
  | single hp => exact h.not_isSubElement_of_parent? hp
  | head hp => exact h.not_isSubElement_of_parent? hp

/-- An owner is there. -/
theorem WellFormed.contains_owner (h : snapshot.WellFormed) (howns : snapshot.Owns owner id) :
    snapshot.contains owner = true := by
  induction howns using Relation.TransGen.head_induction_on with
  | single hp => exact (h.owner_of_parent? hp).1
  | head hp => exact (h.owner_of_parent? hp).1

/-- What is owned is a child, or owned by one. -/
theorem exists_child_of_owns (howns : snapshot.Owns owner id) :
    ∃ child, snapshot.parent? child = some owner ∧ (id = child ∨ snapshot.Owns child id) := by
  induction howns using Relation.TransGen.head_induction_on with
  | single hp => exact ⟨_, hp, .inl rfl⟩
  | head hp howns => exact ⟨_, hp, .inr howns⟩

/-- What is owned has a parent, which is the owner or owned by it. -/
theorem exists_parent?_of_owns (howns : snapshot.Owns owner id) :
    ∃ parent, snapshot.parent? id = some parent ∧
      (parent = owner ∨ snapshot.Owns owner parent) := by
  cases howns with
  | single hp => exact ⟨owner, hp, .inl rfl⟩
  | tail howns hp => exact ⟨_, hp, .inr howns⟩

/-- What has a parent is owned by what the parent is or is owned by. -/
theorem owns_of_parent? {parent : ObjectId} (hp : snapshot.parent? id = some parent)
    (howner : parent = owner ∨ snapshot.Owns owner parent) : snapshot.Owns owner id := by
  rcases howner with rfl | howns
  · exact .single hp
  · exact .tail howns hp

/-- What is on a branch is owned by what the branch stands under. -/
theorem owns_of_branch {branch : ObjectId} (hp : snapshot.parent? branch = some owner)
    (hid : id = branch ∨ snapshot.Owns branch id) : snapshot.Owns owner id := by
  rcases hid with rfl | howns
  · exact .single hp
  · exact .head hp howns

/-- The owners of an object form a chain, so on each level there is one at most. -/
theorem WellFormed.branch_eq_of_depth (h : snapshot.WellFormed) {a b : ObjectId}
    (ha : id = a ∨ snapshot.Owns a id) (hb : id = b ∨ snapshot.Owns b id)
    (hdepth : a.kind.depth = b.kind.depth) : a = b := by
  have hup : ∀ {owner}, id = owner ∨ snapshot.Owns owner id →
      Relation.ReflTransGen (fun id owner => snapshot.parent? id = some owner) id owner := by
    rintro owner (rfl | howns)
    · exact .refl
    · exact (Relation.transGen_swap.1 howns).to_reflTransGen
  have heq : ∀ {a b}, a.kind.depth = b.kind.depth →
      Relation.ReflTransGen (fun id owner => snapshot.parent? id = some owner) a b → a = b := by
    intro a b hdepth hab
    rcases Relation.reflTransGen_iff_eq_or_transGen.1 hab with rfl | hab
    · rfl
    · have := h.depth_lt_of_owns (Relation.transGen_swap.1 hab)
      omega
  rcases Relation.ReflTransGen.total_of_right_unique
    (fun _ _ _ hx hy => Option.some.inj (hx.symm.trans hy)) (hup ha) (hup hb) with hab | hba
  · exact heq hdepth hab
  · exact (heq hdepth.symm hba).symm

/-- Nothing stands under a column. -/
theorem WellFormed.ne_column_of_owns (h : snapshot.WellFormed) (hkind : id.kind ≠ .column)
    (hid : id = owner ∨ snapshot.Owns owner id) : owner.kind ≠ .column := by
  rcases hid with rfl | howns
  · exact hkind
  · intro hcolumn
    have hsub := h.not_isSubElement_of_owns howns
    rw [hcolumn] at hsub
    cases hsub

/-- Nothing owns the database. -/
theorem WellFormed.parent?_database (h : snapshot.WellFormed) :
    snapshot.parent? .database = none := by
  rw [Option.eq_none_iff_forall_ne_some]
  intro parent hp
  have hunder := (h.owner_of_parent? hp).2.1
  cases hkind : parent.kind <;> rw [hkind] at hunder <;> cases hunder

/-- Everything else is owned by the database. -/
theorem WellFormed.owns_database (h : snapshot.WellFormed) (hid : snapshot.contains id = true) :
    id = .database ∨ snapshot.Owns .database id := by
  generalize hdepth : id.kind.depth = depth
  induction depth generalizing id with
  | zero =>
    by_contra hne
    obtain ⟨parent, hp⟩ := h.exists_parent? hid fun heq => hne (.inl heq)
    have := ObjectKind.depth_of_canBeUnder (h.owner_of_parent? hp).2.1
    omega
  | succ depth ih =>
    obtain ⟨parent, hp⟩ := h.exists_parent? hid (by rintro rfl; cases hdepth)
    obtain ⟨hparent, hunder, -⟩ := h.owner_of_parent? hp
    have := ObjectKind.depth_of_canBeUnder hunder
    exact .inr (owns_of_parent? hp (ih hparent (by omega)))

/-- The path of what is there is as long as it stands deep. -/
theorem WellFormed.length_path (h : snapshot.WellFormed) (hid : snapshot.contains id = true) :
    id.path.length = id.kind.depth := by
  generalize hdepth : id.kind.depth = depth
  induction depth generalizing id with
  | zero =>
    rcases h.owns_database hid with rfl | howns
    · rfl
    · have := h.depth_lt_of_owns howns
      omega
  | succ depth ih =>
    obtain ⟨parent, hp⟩ := h.exists_parent? hid (by rintro rfl; cases hdepth)
    obtain ⟨hparent, hunder, hchild⟩ := h.owner_of_parent? hp
    have := ObjectKind.depth_of_canBeUnder hunder
    rw [hchild, ObjectId.child_path, List.length_append, ih hparent (by omega)]
    rfl

/-! ## Tables and views -/

/-- No table has the schema and the name of a view. -/
def TablesApart (snapshot : Snapshot) : Prop :=
  ∀ s ∈ snapshot.statements, s.id.kind = .table → snapshot.contains ⟨.view, s.id.path⟩ = false

/-- Whether tables and views are told apart by their names can be computed. -/
instance : DecidablePred TablesApart := fun snapshot =>
  inferInstanceAs (Decidable (∀ s ∈ snapshot.statements, _))

/-- Tables and views of one path are one object. -/
theorem TablesApart.eq_of_path (h : snapshot.TablesApart)
    {a b : ObjectId} (ha : snapshot.contains a = true) (hb : snapshot.contains b = true)
    (hakind : a.kind = .table ∨ a.kind = .view) (hbkind : b.kind = .table ∨ b.kind = .view)
    (hpath : a.path = b.path) : a = b := by
  have hnot : ∀ {path}, snapshot.contains ⟨.table, path⟩ = true →
      snapshot.contains ⟨.view, path⟩ = true → False := by
    intro path htable hview
    obtain ⟨s, hs, hid⟩ := contains_iff_exists_mem.1 htable
    have := h s hs (by rw [hid])
    rw [hid, hview] at this
    cases this
  obtain ⟨akind, path⟩ := a
  obtain ⟨bkind, _⟩ := b
  obtain rfl : path = _ := hpath
  rcases hakind with rfl | rfl <;> rcases hbkind with rfl | rfl
  · rfl
  · exact (hnot ha hb).elim
  · exact (hnot hb ha).elim
  · rfl

/-- What an object owns that can own sub-elements only stands under it. -/
theorem WellFormed.parent?_of_owns (h : snapshot.WellFormed) (hdepth : owner.kind.depth = 2)
    (howns : snapshot.Owns owner id) :
    id.kind.isSubElement = true ∧ snapshot.parent? id = some owner := by
  have hdeeper := h.depth_lt_of_owns howns
  have hle := id.kind.depth_le
  refine ⟨(ObjectKind.isSubElement_iff_depth _).2 (by omega), ?_⟩
  obtain ⟨parent, hp, rfl | howns⟩ := exists_parent?_of_owns howns
  · exact hp
  · have := h.depth_lt_of_owns howns
    have := ObjectKind.depth_of_canBeUnder (h.owner_of_parent? hp).2.1
    omega

/-- What lives in a schema is the schema or owned by it. -/
theorem WellFormed.owns_of_schemaName? (h : snapshot.WellFormed) {schema : ObjectId}
    (hschema : schema.kind = .schema) (hlength : schema.path.length = 1)
    (hid : snapshot.contains id = true) (hname : id.schemaName? = schema.schemaName?) :
    id = schema ∨ snapshot.Owns schema id := by
  obtain ⟨name, hpath⟩ := List.length_eq_one_iff.1 hlength
  have hschemaName : schema.schemaName? = some name := by
    rw [ObjectId.schemaName?, hschema, hpath]
    rfl
  rw [hschemaName] at hname
  generalize hdepth : id.kind.depth = depth
  induction depth generalizing id with
  | zero =>
    have hkind : id.kind = .database := by
      cases hcases : id.kind <;> rw [hcases] at hdepth <;> first | rfl | cases hdepth
    rw [ObjectId.schemaName?, hkind] at hname
    cases hname
  | succ depth ih =>
    have hhead : id.path.head? = some name := by
      unfold ObjectId.schemaName? at hname
      split at hname
      · cases hname
      · cases hname
      · exact hname
    by_cases hkind : id.kind = .schema
    · have hone := h.length_path hid
      rw [hkind] at hone
      obtain ⟨only, honly⟩ := List.length_eq_one_iff.1 hone
      rw [honly, List.head?_cons] at hhead
      refine .inl (ObjectId.eq_of_kind_path (hkind.trans hschema.symm) ?_)
      rw [honly, hpath, Option.some.inj hhead]
    · obtain ⟨parent, hp⟩ := h.exists_parent? hid (by rintro rfl; cases hdepth)
      obtain ⟨hparent, hunder, hchild⟩ := h.owner_of_parent? hp
      have hdeeper := ObjectKind.depth_of_canBeUnder hunder
      -- The parent is neither the database nor a role, so it lives in the schema as well.
      have hparentKind : parent.kind ≠ .database ∧ parent.kind ≠ .role := by
        constructor <;> intro heq <;> rw [heq] at hunder <;> cases hcases : id.kind <;>
          rw [hcases] at hunder <;> first | cases hunder; done | exact hkind hcases | skip
        rw [ObjectId.schemaName?, hcases] at hname
        cases hname
      have hpositive : 0 < parent.path.length := by
        rw [h.length_path hparent]
        cases hcases : parent.kind <;>
          first | exact Nat.succ_pos _ | exact absurd hcases hparentKind.1
      have hparentName : parent.schemaName? = some name := by
        rw [hchild, ObjectId.child_path, List.head?_append_of_ne_nil _
          (List.ne_nil_of_length_pos hpositive)] at hhead
        unfold ObjectId.schemaName?
        split
        · next heq => exact absurd heq hparentKind.1
        · next heq => exact absurd heq hparentKind.2
        · exact hhead
      exact .inr (owns_of_parent? hp (ih hparent hparentName (by omega)))

/-- The place of a relation in the name space of its schema follows from its path. -/
theorem WellFormed.relationKey?_isSome (h : snapshot.WellFormed) (hid : snapshot.contains id = true)
    (hkind : id.kind.isRelation = true) : id.relationKey?.isSome = true := by
  have hdepth : id.kind.depth = 2 := by
    cases hcases : id.kind <;> rw [hcases] at hkind <;> first | rfl | cases hkind
  obtain ⟨s, n, hpath⟩ := List.length_eq_two.1 ((h.length_path hid).trans hdepth)
  rw [ObjectId.relationKey?, hkind, hpath]
  rfl

/-! ## What two snapshots have in common -/

variable {a b : Snapshot}

/-- What is no sub-element stands under the same parent wherever it is. -/
theorem WellFormed.parent?_eq (ha : a.WellFormed) (hb : b.WellFormed)
    (hsub : id.kind.isSubElement = false) (hia : a.contains id = true)
    (hib : b.contains id = true) : a.parent? id = b.parent? id := by
  by_cases hid : id = .database
  · rw [hid, ha.parent?_database, hb.parent?_database]
  · obtain ⟨p, hp⟩ := ha.exists_parent? hia hid
    obtain ⟨q, hq⟩ := hb.exists_parent? hib hid
    have hkind := ObjectKind.owner_unique hsub (ha.owner_of_parent? hp).2.1
      (hb.owner_of_parent? hq).2.1
    have hpath : p.path = q.path := by
      rw [← ha.containerPath_of_parent? hp, hb.containerPath_of_parent? hq]
    rw [hp, hq, ObjectId.eq_of_kind_path hkind hpath]

/-- What both snapshots hold stands under the same parent if the parent is in both. -/
theorem TablesApart.parent?_of_parent? (htables : a.TablesApart) (ha : a.WellFormed)
    (hb : b.WellFormed) {parent : ObjectId} (hia : a.contains id = true)
    (hp : b.parent? id = some parent) (hpa : a.contains parent = true) :
    a.parent? id = some parent := by
  cases hsub : id.kind.isSubElement with
  | false => rw [ha.parent?_eq hb hsub hia (contains_of_parent? hp), hp]
  | true =>
    obtain ⟨q, hq⟩ := ha.exists_parent? hia (by rintro rfl; cases hsub)
    have hpath : q.path = parent.path := by
      rw [← ha.containerPath_of_parent? hq, hb.containerPath_of_parent? hp]
    rw [hq, htables.eq_of_path (ha.owner_of_parent? hq).1 hpa (ha.table_or_view_of_parent? hsub hq)
      (hb.table_or_view_of_parent? hsub hp) hpath]

section
variable (ha : a.WellFormed) (hb : b.WellFormed)
include ha hb

/-- What is no sub-element has the same owners wherever it is. -/
theorem WellFormed.owns_of_owns (hsub : id.kind.isSubElement = false)
    (hia : a.contains id = true) (howns : b.Owns owner id) : a.Owns owner id := by
  induction howns with
  | single hp => exact .single (by rw [ha.parent?_eq hb hsub hia (contains_of_parent? hp), hp])
  | @tail middle id _ hp ih =>
    have hmiddle := hb.not_isSubElement_of_parent? hp
    have hpa : a.parent? id = some middle := by
      rw [ha.parent?_eq hb hsub hia (contains_of_parent? hp), hp]
    exact .tail (ih hmiddle (ha.owner_of_parent? hpa).1) hpa

/-- Nothing on a branch that one snapshot only holds stands under the same parent in both. -/
theorem WellFormed.parent?_ne_of_branch {branch stem : ObjectId}
    (hbranch : a.contains branch = false) (hstem : b.parent? branch = some stem)
    (hid : id = branch ∨ b.Owns branch id) : a.parent? id ≠ b.parent? id := by
  intro heq
  rcases hid with rfl | howns
  · rw [hstem] at heq
    rw [contains_of_parent? heq] at hbranch
    cases hbranch
  · obtain ⟨parent, hp, hparent⟩ := exists_parent?_of_owns howns
    rw [hp] at heq
    have hpa := (ha.owner_of_parent? heq).1
    have hthere : a.contains branch = true := by
      rcases hparent with rfl | howns
      · exact hpa
      · exact ha.contains_owner
          (ha.owns_of_owns hb (ha.not_isSubElement_of_parent? heq) hpa howns)
    rw [hbranch] at hthere
    cases hthere

/-- What one snapshot only holds is on a branch that leaves what both hold. -/
theorem WellFormed.exists_branch (hib : b.contains id = true) (hia : a.contains id = false) :
    ∃ branch stem, b.parent? branch = some stem ∧ a.contains stem = true ∧
      a.contains branch = false ∧ (id = branch ∨ b.Owns branch id) := by
  generalize hdepth : id.kind.depth = depth
  induction depth generalizing id with
  | zero =>
    rcases hb.owns_database hib with rfl | howns
    · rw [ha.rooted] at hia
      cases hia
    · have := hb.depth_lt_of_owns howns
      omega
  | succ depth ih =>
    obtain ⟨parent, hp⟩ := hb.exists_parent? hib (by rintro rfl; cases hdepth)
    obtain ⟨hparent, hunder, -⟩ := hb.owner_of_parent? hp
    cases hpa : a.contains parent with
    | true => exact ⟨id, parent, hp, hpa, hia, .inl rfl⟩
    | false =>
      have := ObjectKind.depth_of_canBeUnder hunder
      obtain ⟨branch, stem, hstem, hthere, hgone, howns⟩ := ih hparent hpa (by omega)
      exact ⟨branch, stem, hstem, hthere, hgone, .inr (owns_of_parent? hp howns)⟩

/-- Columns and constraints stand under the same parent wherever they are. -/
theorem WellFormed.parent_eq_of_inline {p q : ObjectId}
    (hkind : id.kind = .column ∨ id.kind = .constraint) (hp : a.parent? id = some p)
    (hq : b.parent? id = some q) : p = q := by
  refine ObjectId.eq_of_kind_path ?_ ?_
  · rw [ObjectKind.eq_table_of_canBeUnder hkind (ha.owner_of_parent? hp).2.1,
      ObjectKind.eq_table_of_canBeUnder hkind (hb.owner_of_parent? hq).2.1]
  · rw [← ha.containerPath_of_parent? hp, hb.containerPath_of_parent? hq]

/-- So is what does not stand under the same parent, or its parent there. -/
theorem WellFormed.exists_branch_of_ne (htables : a.TablesApart) (hib : b.contains id = true)
    (hne : a.parent? id ≠ b.parent? id) :
    ∃ branch stem, b.parent? branch = some stem ∧ a.contains stem = true ∧
      a.contains branch = false ∧ (id = branch ∨ b.Owns branch id) := by
  cases hia : a.contains id with
  | false => exact ha.exists_branch hb hib hia
  | true =>
    obtain ⟨parent, hp⟩ := hb.exists_parent? hib (by
      rintro rfl
      exact hne (by rw [ha.parent?_database, hb.parent?_database]))
    have hpa : a.contains parent = false := by
      by_contra hpa
      rw [Bool.not_eq_false] at hpa
      exact hne (by rw [hp, htables.parent?_of_parent? ha hb hia hp hpa])
    obtain ⟨branch, stem, hstem, hthere, hgone, hbranch⟩ :=
      ha.exists_branch hb (hb.owner_of_parent? hp).1 hpa
    exact ⟨branch, stem, hstem, hthere, hgone, .inr (owns_of_parent? hp hbranch)⟩

/-- The parents of a sub-element, a table here or a view there, stand under the same schema. -/
theorem WellFormed.parent?_eq_of_parents {p q : ObjectId} (hsub : id.kind.isSubElement = true)
    (hp : a.parent? id = some p) (hq : b.parent? id = some q) : a.parent? p = b.parent? q := by
  have hpkind := ha.table_or_view_of_parent? hsub hp
  have hqkind := hb.table_or_view_of_parent? hsub hq
  have hpath : p.containerPath = q.containerPath := by
    rw [ObjectId.containerPath, ← ha.containerPath_of_parent? hp, hb.containerPath_of_parent? hq,
      ObjectId.containerPath]
  obtain ⟨r, hr⟩ := ha.exists_parent? (ha.owner_of_parent? hp).1
    (by rintro rfl; rcases hpkind with h | h <;> cases h)
  obtain ⟨s, hs⟩ := hb.exists_parent? (hb.owner_of_parent? hq).1
    (by rintro rfl; rcases hqkind with h | h <;> cases h)
  have hschema : ∀ {kind owner : ObjectKind}, kind = .table ∨ kind = .view →
      kind.canBeUnder owner = true → owner = .schema := by
    intro kind owner hkind hunder
    rcases hkind with rfl | rfl <;> cases owner <;> cases hunder <;> rfl
  have hkind : r.kind = s.kind := (hschema hpkind (ha.owner_of_parent? hr).2.1).trans
    (hschema hqkind (hb.owner_of_parent? hs).2.1).symm
  rw [hr, hs, ObjectId.eq_of_kind_path hkind]
  rw [← ha.containerPath_of_parent? hr, hpath, hb.containerPath_of_parent? hs]

end

end Snapshot

end SchemaMigration
