import Mathlib.Data.List.Nodup
import Mathlib.Data.List.Perm.Subperm
import Mathlib.Logic.Relation
import SchemaMigration.Plan.ExtraDependencies

/-!
# The tree of a snapshot

The statements of a snapshot form a tree (`Snapshot.WellFormed`): each identity has one statement,
and every statement but the database stands under a parent that may own it, that lists it and whose
path leads its own. Kinds say how deep an object stands (`ObjectKind.depth`), so no chain of owners
is longer than the list of statements, and the questions about the tree, which are answered along
chains of at most that length, are answered in full: `isDescendant` is ownership
(`Snapshot.WellFormed.isDescendant_iff`), `descendants` lists what an identity owns, and `topLevel`
is the parent of a sub-element.
-/

namespace SchemaMigration

/-! ## Depth of kinds -/

/-- How far below the database the objects of a kind stand. -/
def ObjectKind.depth : ObjectKind → Nat
  | database => 0
  | schema | role => 1
  | table | view | function | procedure | sequence | type => 2
  | column | constraint | index | trigger | policy => 3

/-- Nothing stands deeper than sub-elements. -/
theorem ObjectKind.depth_le (kind : ObjectKind) : kind.depth ≤ 3 := by
  cases kind <;> simp [depth]

/-- A child stands one level below its owner. -/
theorem ObjectKind.depth_of_canBeUnder {kind owner : ObjectKind}
    (h : kind.canBeUnder owner = true) : kind.depth = owner.depth + 1 := by
  cases kind <;> cases owner <;> first | rfl | cases h

/-- Sub-elements are what stands on the lowest level. -/
theorem ObjectKind.isSubElement_iff_depth (kind : ObjectKind) :
    kind.isSubElement = true ↔ kind.depth = 3 := by
  cases kind <;> simp [isSubElement, depth]

/-- What owns something is no sub-element. -/
theorem ObjectKind.not_isSubElement_of_canBeUnder {kind owner : ObjectKind}
    (h : kind.canBeUnder owner = true) : owner.isSubElement = false := by
  cases kind <;> cases owner <;> first | rfl | cases h

/-- Sub-elements stand under tables and views. -/
theorem ObjectKind.table_or_view_of_canBeUnder {kind owner : ObjectKind}
    (hsub : kind.isSubElement = true) (h : kind.canBeUnder owner = true) :
    owner = .table ∨ owner = .view := by
  cases kind <;> cases owner <;> simp_all [isSubElement, canBeUnder]

/-- Columns and constraints are sub-elements. -/
theorem ObjectKind.isSubElement_of_inline {kind : ObjectKind}
    (h : kind = .column ∨ kind = .constraint) : kind.isSubElement = true := by
  rcases h with rfl | rfl <;> rfl

namespace Snapshot

variable {snapshot : Snapshot} {id : ObjectId} {s : Statement}

/-! ## Look-up -/

/-- A statement that is found is there and has the identity. -/
theorem get?_some (h : snapshot.get? id = some s) : s ∈ snapshot.statements ∧ s.id = id :=
  ⟨List.mem_of_find?_eq_some h, by simpa using List.find?_some h⟩

/-- A snapshot holds the identities that it has a statement for. -/
theorem contains_iff_exists_mem :
    snapshot.contains id = true ↔ ∃ s ∈ snapshot.statements, s.id = id := by
  simp [contains, Statements.has]

/-- A snapshot holds the identities whose statement is found. -/
theorem contains_iff : snapshot.contains id = true ↔ ∃ s, snapshot.get? id = some s := by
  rw [← Option.isSome_iff_exists]
  simp [contains, get?, Statements.has, Statements.get?, List.find?_isSome]

/-- Nothing is found for an identity that is not held. -/
theorem not_contains_iff : snapshot.contains id = false ↔ snapshot.get? id = none := by
  rw [← Bool.not_eq_true, contains_iff, Option.eq_none_iff_forall_ne_some]
  simp

/-- An identity that is meant to be there has its statement. -/
theorem require_eq_ok {side : Side} :
    snapshot.require id side = .ok s ↔ snapshot.get? id = some s := by
  unfold require
  cases snapshot.get? id <;> simp

/-- The parent of an identity is that of its statement. -/
theorem parent?_eq_some {p : ObjectId} :
    snapshot.parent? id = some p ↔ ∃ s, snapshot.get? id = some s ∧ s.parent = some p := by
  simp [parent?, Option.bind_eq_some_iff]

/-- What has a parent is there. -/
theorem contains_of_parent? {p : ObjectId} (h : snapshot.parent? id = some p) :
    snapshot.contains id = true := by
  obtain ⟨s, hs, -⟩ := parent?_eq_some.1 h
  exact contains_iff.2 ⟨s, hs⟩

/-! ## Well-formed snapshots -/

/-- The statements of a snapshot form a tree. -/
structure WellFormed (snapshot : Snapshot) : Prop where
  /-- No identity has two statements. -/
  distinct : (snapshot.statements.map (·.id)).Nodup
  /-- The database is there. -/
  rooted : snapshot.contains .database = true
  /-- Everything else has a parent. -/
  orphan : ∀ s ∈ snapshot.statements, s.parent = none → s.id = .database
  /-- A parent may own its child, leads the path of the child and lists it. -/
  owned : ∀ s ∈ snapshot.statements, ∀ p ∈ s.parent,
    s.kind.canBeUnder p.kind = true ∧ s.id = p.child s.kind s.id.name ∧
      ∃ owner ∈ snapshot.statements, owner.id = p ∧ s.id ∈ owner.children
  /-- What a statement lists is there and has it for its parent. -/
  listed : ∀ s ∈ snapshot.statements, ∀ c ∈ s.children,
    ∃ t ∈ snapshot.statements, t.id = c ∧ t.parent = some s.id
  /-- No child is listed twice. -/
  siblings : ∀ s ∈ snapshot.statements, s.children.Nodup

/-- Whether statements form a tree can be computed. -/
instance : DecidablePred WellFormed := fun snapshot =>
  decidable_of_iff
    ((snapshot.statements.map (·.id)).Nodup ∧ snapshot.contains .database = true ∧
      (∀ s ∈ snapshot.statements, s.parent = none → s.id = .database) ∧
      (∀ s ∈ snapshot.statements, ∀ p ∈ s.parent,
        s.kind.canBeUnder p.kind = true ∧ s.id = p.child s.kind s.id.name ∧
          ∃ owner ∈ snapshot.statements, owner.id = p ∧ s.id ∈ owner.children) ∧
      (∀ s ∈ snapshot.statements, ∀ c ∈ s.children,
        ∃ t ∈ snapshot.statements, t.id = c ∧ t.parent = some s.id) ∧
      ∀ s ∈ snapshot.statements, s.children.Nodup)
    ⟨fun ⟨h₁, h₂, h₃, h₄, h₅, h₆⟩ => ⟨h₁, h₂, h₃, h₄, h₅, h₆⟩,
      fun h => ⟨h.distinct, h.rooted, h.orphan, h.owned, h.listed, h.siblings⟩⟩

/-- The definitions of a snapshot are of the kinds that their identities name. -/
def Typed (snapshot : Snapshot) : Prop :=
  ∀ s ∈ snapshot.statements, s.definition.kind = s.kind

/-- Whether definitions are of the kinds that identities name can be computed. -/
instance : DecidablePred Typed := fun snapshot =>
  inferInstanceAs (Decidable (∀ s ∈ snapshot.statements, _))

/-- The definition of an object is of its kind. -/
theorem Typed.kind_eq (h : snapshot.Typed) (hs : snapshot.get? id = some s) :
    s.definition.kind = id.kind := by
  obtain ⟨hmem, rfl⟩ := get?_some hs
  exact h s hmem

namespace WellFormed

variable (h : snapshot.WellFormed)
include h

/-- The statement of an identity is the only one. -/
theorem get?_of_mem (hs : s ∈ snapshot.statements) : snapshot.get? s.id = some s := by
  obtain ⟨t, ht⟩ := contains_iff.1 (contains_iff_exists_mem.2 ⟨s, hs, rfl⟩)
  obtain ⟨hmem, hid⟩ := get?_some ht
  rw [ht, List.inj_on_of_nodup_map h.distinct hmem hs hid]

/-- A parent is there, may own its child and leads its path. -/
theorem owner_of_parent? {p : ObjectId} (hp : snapshot.parent? id = some p) :
    snapshot.contains p = true ∧ id.kind.canBeUnder p.kind = true ∧
      id = p.child id.kind id.name := by
  obtain ⟨s, hs, hsp⟩ := parent?_eq_some.1 hp
  obtain ⟨hmem, rfl⟩ := get?_some hs
  obtain ⟨hunder, hchild, owner, howner, hid, -⟩ := h.owned s hmem p hsp
  exact ⟨contains_iff_exists_mem.2 ⟨owner, howner, hid⟩, hunder, hchild⟩

/-- A parent is no sub-element. -/
theorem not_isSubElement_of_parent? {p : ObjectId} (hp : snapshot.parent? id = some p) :
    p.kind.isSubElement = false :=
  ObjectKind.not_isSubElement_of_canBeUnder (h.owner_of_parent? hp).2.1

/-- A sub-element is no parent. -/
theorem parent?_ne_of_isSubElement {p : ObjectId} (hsub : p.kind.isSubElement = true) :
    snapshot.parent? id ≠ some p := by
  intro hp
  rw [h.not_isSubElement_of_parent? hp] at hsub
  cases hsub

/-- What is there and is not the database has a parent. -/
theorem exists_parent? (hc : snapshot.contains id = true) (hid : id ≠ .database) :
    ∃ p, snapshot.parent? id = some p := by
  obtain ⟨s, hs⟩ := contains_iff.1 hc
  obtain ⟨hmem, rfl⟩ := get?_some hs
  cases hp : s.parent with
  | none => exact absurd (h.orphan s hmem hp) hid
  | some p => exact ⟨p, parent?_eq_some.2 ⟨s, hs, hp⟩⟩

/-- The children of an identity are the statements that have it for their parent. -/
theorem mem_children {p : ObjectId} :
    s ∈ snapshot.children p ↔ snapshot.get? s.id = some s ∧ s.parent = some p := by
  constructor
  · intro hs
    simp only [children, Statements.children] at hs
    split at hs
    · next owner howner =>
      obtain ⟨hmem, rfl⟩ := get?_some howner
      obtain ⟨c, hc, hcs⟩ := List.mem_filterMap.1 hs
      obtain ⟨hsmem, hsc⟩ := get?_some hcs
      obtain ⟨t, ht, hid, hparent⟩ := h.listed owner hmem c hc
      rw [List.inj_on_of_nodup_map h.distinct ht hsmem (hid.trans hsc.symm)] at hparent
      exact ⟨h.get?_of_mem hsmem, hparent⟩
    · cases hs
  · rintro ⟨hs, hp⟩
    obtain ⟨hmem, -⟩ := get?_some hs
    obtain ⟨-, -, owner, howner, rfl, hc⟩ := h.owned s hmem p hp
    have : Statements.get? snapshot.statements owner.id = some owner := h.get?_of_mem howner
    simp only [children, Statements.children, this]
    exact List.mem_filterMap.2 ⟨s.id, hc, hs⟩

/-- No two children of an identity have one identity. -/
theorem nodup_children (p : ObjectId) : ((snapshot.children p).map (·.id)).Nodup := by
  simp only [children, Statements.children]
  split
  · next owner howner =>
    have hid : ∀ {c b : ObjectId}, b ∈ (snapshot.get? c).map (·.id) → b = c := by
      intro c b hb
      obtain ⟨s, hs, rfl⟩ := Option.map_eq_some_iff.1 hb
      exact (get?_some hs).2
    rw [List.map_filterMap]
    exact (h.siblings owner (get?_some howner).1).filterMap fun a b c ha hb =>
      (hid ha).symm.trans (hid hb)
  · exact List.nodup_nil

/-- The children of an identity by their identities. -/
theorem exists_mem_children {p c : ObjectId} :
    (∃ s ∈ snapshot.children p, s.id = c) ↔ snapshot.parent? c = some p := by
  constructor
  · rintro ⟨s, hs, rfl⟩
    obtain ⟨hget, hp⟩ := h.mem_children.1 hs
    exact parent?_eq_some.2 ⟨s, hget, hp⟩
  · intro hp
    obtain ⟨s, hget, hsp⟩ := parent?_eq_some.1 hp
    obtain ⟨-, rfl⟩ := get?_some hget
    exact ⟨s, h.mem_children.2 ⟨hget, hsp⟩, rfl⟩

/-- The columns of a table are the statements of columns that have it for their parent. -/
theorem mem_columns_iff {table : ObjectId} : s ∈ snapshot.columns table ↔
    s ∈ snapshot.statements ∧ s.parent = some table ∧ s.kind = .column := by
  have hget : snapshot.get? s.id = some s ↔ s ∈ snapshot.statements :=
    ⟨fun hget => (get?_some hget).1, h.get?_of_mem⟩
  rw [columns, Statements.columns, List.mem_filter, decide_eq_true_eq, ← and_assoc, ← hget]
  exact and_congr_left' h.mem_children

end WellFormed

/-! ## Ownership -/

/-- One identity owns another, directly or through others. -/
def Owns (snapshot : Snapshot) (owner id : ObjectId) : Prop :=
  Relation.TransGen (fun owner id => snapshot.parent? id = some owner) owner id

/-- What is owned is there. -/
theorem contains_of_owns {owner : ObjectId} (ho : snapshot.Owns owner id) :
    snapshot.contains id = true := by
  cases ho with
  | single hp => exact contains_of_parent? hp
  | tail _ hp => exact contains_of_parent? hp

/-- A list of owners holds owners only. -/
theorem owns_of_mem_ownersWithin {owner : ObjectId} : ∀ {steps : Nat} {id : ObjectId},
    owner ∈ snapshot.ownersWithin steps id → snapshot.Owns owner id
  | 0, _, h => by cases h
  | steps + 1, id, h => by
    unfold ownersWithin at h
    split at h
    · next parent hp =>
      rcases List.mem_cons.1 h with rfl | h
      · exact .single hp
      · exact .tail (owns_of_mem_ownersWithin h) hp
    · cases h

namespace WellFormed

variable (h : snapshot.WellFormed)
include h

/-- What is owned stands deeper than its owner. -/
theorem depth_lt_of_owns {owner : ObjectId} (ho : snapshot.Owns owner id) :
    owner.kind.depth < id.kind.depth := by
  induction ho with
  | single hp =>
    have := ObjectKind.depth_of_canBeUnder (h.owner_of_parent? hp).2.1
    omega
  | tail _ hp ih =>
    have := ObjectKind.depth_of_canBeUnder (h.owner_of_parent? hp).2.1
    omega

/-- Nothing owns itself. -/
theorem not_owns_self : ¬ snapshot.Owns id id := fun ho =>
  Nat.lt_irrefl _ (h.depth_lt_of_owns ho)

/-- Nothing is its own parent. -/
theorem ne_of_parent? {p : ObjectId} (hp : snapshot.parent? id = some p) : p ≠ id := by
  rintro rfl
  exact h.not_owns_self (.single hp)

/-- There are more statements than an identity has owners. -/
theorem depth_lt_length (hc : snapshot.contains id = true) :
    id.kind.depth < snapshot.statements.length := by
  have hline : ∀ depth id, snapshot.contains id = true → id.kind.depth = depth →
      ∃ line : List ObjectId, line.Nodup ∧ line.length = depth + 1 ∧
        ∀ x ∈ line, snapshot.contains x = true ∧ x.kind.depth ≤ depth := by
    intro depth
    induction depth with
    | zero => exact fun id hc hd => ⟨[id], List.nodup_singleton id, rfl, by simp [hc, hd]⟩
    | succ depth ih =>
      intro id hc hd
      have hne : id ≠ .database := by rintro rfl; cases hd
      obtain ⟨p, hp⟩ := h.exists_parent? hc hne
      obtain ⟨hpc, hunder, -⟩ := h.owner_of_parent? hp
      have hpd := ObjectKind.depth_of_canBeUnder hunder
      obtain ⟨line, hnodup, hlen, hline⟩ := ih p hpc (by omega)
      refine ⟨id :: line, List.nodup_cons.2 ⟨fun hin => ?_, hnodup⟩, by simp [hlen], ?_⟩
      · have := (hline id hin).2
        omega
      · rintro x (_ | ⟨_, hx⟩)
        · exact ⟨hc, by omega⟩
        · exact ⟨(hline x hx).1, by have := (hline x hx).2; omega⟩
  obtain ⟨line, hnodup, hlen, hline⟩ := hline _ id hc rfl
  have hsub : line ⊆ snapshot.statements.map (·.id) := fun x hx => by
    obtain ⟨s, hs, rfl⟩ := contains_iff_exists_mem.1 (hline x hx).1
    exact List.mem_map_of_mem hs
  have := (hnodup.subperm hsub).length_le
  simp only [hlen, List.length_map] at this
  omega

/-- A list of owners that is long enough holds all of them. -/
theorem mem_ownersWithin_of_owns {owner : ObjectId} {steps : Nat} (ho : snapshot.Owns owner id)
    (hsteps : id.kind.depth ≤ steps) : owner ∈ snapshot.ownersWithin steps id := by
  induction ho generalizing steps with
  | single hp =>
    have := ObjectKind.depth_of_canBeUnder (h.owner_of_parent? hp).2.1
    obtain ⟨steps, rfl⟩ : ∃ n, steps = n + 1 := ⟨steps - 1, by omega⟩
    simp [ownersWithin, hp]
  | tail _ hp ih =>
    have := ObjectKind.depth_of_canBeUnder (h.owner_of_parent? hp).2.1
    obtain ⟨steps, rfl⟩ : ∃ n, steps = n + 1 := ⟨steps - 1, by omega⟩
    simp only [ownersWithin, hp]
    exact List.mem_cons_of_mem _ (ih (by omega))

/-- The test along the chain of owners finds ownership. -/
theorem isDescendant_iff {owner : ObjectId} :
    snapshot.isDescendant id owner = true ↔ snapshot.Owns owner id := by
  simp only [isDescendant, owners, List.contains_iff_mem]
  refine ⟨owns_of_mem_ownersWithin, fun ho => h.mem_ownersWithin_of_owns ho ?_⟩
  have := h.depth_lt_length (contains_of_owns ho)
  omega

/-- The descendants of an identity are what it owns. -/
theorem mem_descendants_iff {owner : ObjectId} :
    (∃ s ∈ snapshot.descendants owner, s.id = id) ↔ snapshot.Owns owner id := by
  constructor
  · have hdown : ∀ steps owner, ∀ s ∈ snapshot.descendantsWithin steps owner,
        snapshot.Owns owner s.id := by
      intro steps
      induction steps with
      | zero => simp [descendantsWithin]
      | succ steps ih =>
        intro owner s hs
        rw [descendantsWithin, List.mem_flatMap] at hs
        obtain ⟨child, hchild, hs⟩ := hs
        have hp := h.exists_mem_children.1 ⟨child, hchild, rfl⟩
        rcases List.mem_cons.1 hs with rfl | hs
        · exact .single hp
        · exact .head hp (ih child.id s hs)
    rintro ⟨s, hs, rfl⟩
    exact hdown _ owner s hs
  · intro ho
    have hlen := h.depth_lt_length (contains_of_owns ho)
    have hup : ∀ steps, id.kind.depth - owner.kind.depth ≤ steps →
        ∃ s ∈ snapshot.descendantsWithin steps owner, s.id = id := by
      induction ho using Relation.TransGen.head_induction_on with
      | single hp =>
        intro steps hsteps
        have := ObjectKind.depth_of_canBeUnder (h.owner_of_parent? hp).2.1
        obtain ⟨steps, rfl⟩ : ∃ n, steps = n + 1 := ⟨steps - 1, by omega⟩
        obtain ⟨child, hchild, rfl⟩ := h.exists_mem_children.2 hp
        exact ⟨child, List.mem_flatMap.2 ⟨child, hchild, List.mem_cons_self⟩, rfl⟩
      | @head owner middle hp ho ih =>
        intro steps hsteps
        have := ObjectKind.depth_of_canBeUnder (h.owner_of_parent? hp).2.1
        have := h.depth_lt_of_owns ho
        obtain ⟨steps, rfl⟩ : ∃ n, steps = n + 1 := ⟨steps - 1, by omega⟩
        obtain ⟨child, hchild, rfl⟩ := h.exists_mem_children.2 hp
        obtain ⟨s, hs, hid⟩ := ih steps (by omega)
        exact ⟨s, List.mem_flatMap.2 ⟨child, hchild, List.mem_cons_of_mem _ hs⟩, hid⟩
    exact hup _ (by omega)

/-! ## Sub-elements -/

/-- The parent of a sub-element is a table or a view. -/
theorem table_or_view_of_parent? {p : ObjectId} (hsub : id.kind.isSubElement = true)
    (hp : snapshot.parent? id = some p) : p.kind = .table ∨ p.kind = .view :=
  ObjectKind.table_or_view_of_canBeUnder hsub (h.owner_of_parent? hp).2.1

/-- What stands under a parent has the path of the parent for its container. -/
theorem containerPath_of_parent? {p : ObjectId} (hp : snapshot.parent? id = some p) :
    id.containerPath = p.path := by
  rw [(h.owner_of_parent? hp).2.2, ObjectId.child_containerPath]

/-- The nearest owner of a sub-element that is none itself is its parent. -/
theorem topLevel_of_parent? {p : ObjectId} (hsub : id.kind.isSubElement = true)
    (hp : snapshot.parent? id = some p) : snapshot.topLevel id = p := by
  have hnot := h.not_isSubElement_of_parent? hp
  have hlen := h.depth_lt_length (contains_of_parent? hp)
  have howners : ∃ rest, snapshot.owners id = p :: rest := by
    obtain ⟨steps, hsteps⟩ : ∃ n, snapshot.statements.length = n + 1 :=
      ⟨snapshot.statements.length - 1, by omega⟩
    exact ⟨snapshot.ownersWithin steps p, by rw [owners, hsteps, ownersWithin, hp]⟩
  obtain ⟨rest, hrest⟩ := howners
  simp [topLevel, hrest, hsub, hnot]

end WellFormed

/-- What is no sub-element is its own nearest one that is none. -/
theorem topLevel_of_not_isSubElement (hsub : id.kind.isSubElement = false) :
    snapshot.topLevel id = id := by
  simp [topLevel, hsub]

/-- What is not there has no owners, so there is nothing above it. -/
theorem topLevel_of_not_contains (h : snapshot.contains id = false) :
    snapshot.topLevel id = id := by
  have howners : snapshot.owners id = [] := by
    rw [owners]
    cases snapshot.statements.length <;> simp [ownersWithin, parent?, not_contains_iff.1 h]
  rw [topLevel, howners]
  cases hsub : id.kind.isSubElement <;> simp [hsub]

/-- The children of an identity are there. -/
theorem contains_of_mem_children (h : s ∈ snapshot.children id) :
    snapshot.contains s.id = true := by
  simp only [children, Statements.children] at h
  split at h
  · obtain ⟨_, -, hchild⟩ := List.mem_filterMap.1 h
    exact contains_iff_exists_mem.2 ⟨s, (get?_some hchild).1, rfl⟩
  · cases h

/-- A child of an identity is the statement of its own identity. -/
theorem get?_of_mem_children (h : s ∈ snapshot.children id) : snapshot.get? s.id = some s := by
  simp only [children, Statements.children] at h
  split at h
  · obtain ⟨child, -, hchild⟩ := List.mem_filterMap.1 h
    rw [(get?_some hchild).2]
    exact hchild
  · cases h

/-! ## Needs -/

/-- One object needs another, by a dependency of its statement or by an extra pair. -/
def Needs (snapshot : Snapshot) (pairs : List DependencyPair) (dependent need : ObjectId) : Prop :=
  (∃ s, snapshot.get? dependent = some s ∧ need ∈ s.dependencies) ∨ ⟨dependent, need⟩ ∈ pairs

/-- What an object needs is listed by its statement or by the extra pairs. -/
theorem mem_of_needs {pairs : List DependencyPair} {need : ObjectId}
    (hs : snapshot.get? id = some s)
    (h : snapshot.Needs pairs id need) :
    need ∈ s.dependencies ++ DependencyPair.dependenciesOf pairs s.id := by
  rw [List.mem_append, (get?_some hs).2]
  rcases h with ⟨t, ht, hin⟩ | hpair
  · exact .inl (Option.some.inj (hs.symm.trans ht) ▸ hin)
  · exact .inr (List.mem_map.2 ⟨_, List.mem_filter.2 ⟨hpair, beq_self_eq_true id⟩, rfl⟩)

/-- An object needs what its statement lists, and what it is paired with. -/
theorem needs_of_mem {pairs : List DependencyPair} {need : ObjectId}
    (hs : snapshot.get? id = some s)
    (h : need ∈ s.dependencies ++ DependencyPair.dependenciesOf pairs s.id) :
    snapshot.Needs pairs id need := by
  rw [List.mem_append, (get?_some hs).2] at h
  rcases h with hin | hpair
  · exact .inl ⟨s, hs, hin⟩
  · obtain ⟨⟨dependent, _⟩, hmem, rfl⟩ := List.mem_map.1 hpair
    obtain ⟨hlisted, hid⟩ := List.mem_filter.1 hmem
    obtain rfl : dependent = id := by simpa using hid
    exact .inr hlisted

end Snapshot

end SchemaMigration
