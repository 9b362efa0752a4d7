import SchemaMigration.Difference.Elements
import SchemaMigration.Proofs.Snapshot.Sides
import SchemaMigration.Proofs.Success

/-!
# What the tree of differences lists

With the filter that lets everything through, the tree of an object that one snapshot only holds
lists the object and what it owns, columns aside (`Difference.mem_oneSided`). A comparison of an
object in both lists the differences of its branches one after the other: those of the new side,
then the ones that are gone (`Difference.compare_eq_ok`). It passes over trees whose fingerprints
agree, so that it misses nothing rests on what the fingerprints tell (`Snapshot.PrintsTell`).
-/

namespace SchemaMigration

/-! ## Fingerprints -/

/-- Something that an object owns in either of two snapshots does not stand under the same parent in
both. -/
def Snapshot.Changes (old new : Snapshot) (id : ObjectId) : Prop :=
  ∃ other, (old.Owns id other ∨ new.Owns id other) ∧ old.parent? other ≠ new.parent? other

/-- Fingerprints tell trees apart: objects in both snapshots with one tree digest own the same
objects in the same places, and those with one element digest have the same columns. -/
structure Snapshot.PrintsTell (old new : Snapshot) : Prop where
  tree : ∀ {id}, old.contains id = true → new.contains id = true →
    (old.fingerprint id).tree = (new.fingerprint id).tree → ¬ old.Changes new id
  element : ∀ {id}, old.contains id = true → new.contains id = true →
    (old.fingerprint id).element = (new.fingerprint id).element →
      ∀ column, column.kind = .column →
        (old.parent? column = some id ↔ new.parent? column = some id)

namespace Difference

variable {old new snapshot : Snapshot} {element : Element} {id : ObjectId}

/-! ## Trees of one side -/

/-- The filter that lets everything through does. -/
@[simp]
theorem includes_default (id : ObjectId) : ({} : SelectionFilter).includes id = true := rfl

/-- What several trees list. -/
theorem selectedAll_eq_flatMap (filter : SelectionFilter) (trees : List Difference) :
    selectedAll filter trees = trees.flatMap (selected filter) := by
  induction trees with
  | nil => rfl
  | cons tree trees ih => rw [selectedAll, ih, List.flatMap_cons]

/-- What a node lists: itself if it is a difference, then what is under it. -/
theorem selected_node (changed : Bool) (children : List Difference) :
    selected {} (node element changed children) =
      (if element.presence ≠ .both ∨ changed = true then [element] else []) ++
        children.flatMap (selected {}) := by
  rw [selected, selectedAll_eq_flatMap, includes_default, isDifference, Difference.element,
    Difference.changed]
  simp only [Bool.and_true, Bool.or_eq_true, decide_eq_true_eq]

/-- The tree of one side lists objects of that side, from the object of the tree on. -/
theorem mem_oneSided (h : snapshot.WellFormed) {presence : Presence} {depth : Nat} {s : Statement}
    (hmem : element ∈ selected {} (oneSided snapshot presence depth s)) :
    element.presence = presence ∧ (element.id = s.id ∨ snapshot.Owns s.id element.id) := by
  induction depth generalizing s with
  | zero =>
    rw [oneSided, selected_node] at hmem
    simp only [or_true, if_true, List.flatMap_nil, List.append_nil, List.mem_singleton] at hmem
    exact hmem ▸ ⟨rfl, .inl rfl⟩
  | succ depth ih =>
    rw [oneSided, selected_node] at hmem
    simp only [or_true, if_true, List.mem_append, List.mem_singleton, List.mem_flatMap,
      List.mem_map, List.mem_filter] at hmem
    rcases hmem with rfl | ⟨_, ⟨child, ⟨hchild, -⟩, rfl⟩, hmem⟩
    · exact ⟨rfl, .inl rfl⟩
    · obtain ⟨hpresence, hid⟩ := ih hmem
      have hp := h.exists_mem_children.1 ⟨child, hchild, rfl⟩
      refine ⟨hpresence, .inr ?_⟩
      rcases hid with hid | howns
      · exact hid ▸ .single hp
      · exact .head hp howns

/-- The tree of one side lists whatever the object owns there, columns aside, if it is deep
enough. -/
theorem mem_oneSided_of_owns (h : snapshot.WellFormed) {presence : Presence} {depth : Nat}
    {s : Statement} (hid : id = s.id ∨ snapshot.Owns s.id id) (hkind : id.kind ≠ .column)
    (hdepth : id.kind.depth ≤ depth + s.id.kind.depth) :
    ⟨id, presence⟩ ∈ selected {} (oneSided snapshot presence depth s) := by
  induction depth generalizing s with
  | zero =>
    obtain rfl : id = s.id := hid.resolve_right fun howns => by
      have := h.depth_lt_of_owns howns
      omega
    rw [oneSided, selected_node]
    simp
  | succ depth ih =>
    rw [oneSided, selected_node]
    rcases hid with rfl | howns
    · simp
    · obtain ⟨child, hp, hchild⟩ := Snapshot.exists_child_of_owns howns
      obtain ⟨t, ht, rfl⟩ := h.exists_mem_children.2 hp
      have hdeeper := ObjectKind.depth_of_canBeUnder (h.owner_of_parent? hp).2.1
      have hnode := h.ne_column_of_owns hkind hchild
      refine List.mem_append_right _ (List.mem_flatMap.2 ⟨_, List.mem_map_of_mem
        (List.mem_filter.2 ⟨ht, decide_eq_true hnode⟩), ih hchild ?_⟩)
      omega

/-! ## Comparisons -/

/-- The differences of one child in the new snapshot. -/
def branch (old new : Snapshot) (depth : Nat) (child : Statement) :
    Except MigrationError (Option Difference) :=
  match old.get? child.id with
  | some previous => compare old new depth previous child
  | none => .ok (some (oneSided new .onlyNew new.size child))

/-- The trees of the children in the old snapshot that are gone in the new one. -/
def goneTrees (old new : Snapshot) (id : ObjectId) : List Difference :=
  ((old.children id).filter fun child =>
    child.kind ≠ .column && !new.contains child.id).map (oneSided old .onlyOld old.size)

/-- What a tree lists, if there is one. -/
def listing (tree? : Option Difference) : List Element := tree?.elim [] (selected {})

/-- What some trees list that may not be there. -/
theorem flatMap_reduceOption (trees : List (Option Difference)) :
    trees.reduceOption.flatMap (selected {}) = trees.flatMap listing := by
  induction trees with
  | nil => rfl
  | cons tree? trees ih =>
    cases tree? with
    | none => rw [List.reduceOption_cons_of_none, ih]; rfl
    | some tree => rw [List.reduceOption_cons_of_some, List.flatMap_cons, ih]; rfl

/-- A comparison lists nothing if the fingerprints of the trees agree. Otherwise it lists the object
if its element has changed, then the differences of the children in the new snapshot, then what is
gone with children of the old one. -/
theorem compare_eq_ok {depth : Nat} {left right : Statement} {tree? : Option Difference}
    (h : compare old new (depth + 1) left right = .ok tree?) :
    ((old.fingerprint left.id).tree = (new.fingerprint right.id).tree ∧ tree? = none) ∨
      (old.fingerprint left.id).tree ≠ (new.fingerprint right.id).tree ∧
        ∃ branches, List.Forall₂ (fun child found => branch old new depth child = .ok found)
            ((new.children right.id).filter (·.kind ≠ .column)) branches ∧
          listing tree? =
            (if (old.fingerprint left.id).element ≠ (new.fingerprint right.id).element
              then [⟨right.id, .both⟩] else []) ++
            (branches.flatMap listing ++ (goneTrees old new left.id).flatMap (selected {})) := by
  unfold compare at h
  split at h
  · cases h
  · dsimp only at h
    split at h
    · next heq => exact .inl ⟨heq, (Except.ok.inj h).symm⟩
    · next hne =>
      obtain ⟨kept, hkept, h⟩ := bind_eq_ok.1 h
      obtain ⟨branches, hbranches, rfl⟩ := filterMapM_eq_ok.1 hkept
      refine .inr ⟨hne, branches, hbranches, ?_⟩
      rw [← flatMap_reduceOption, ← List.flatMap_append]
      split at h
      · next hnone =>
        obtain rfl := Except.ok.inj h
        rw [Bool.and_eq_true, List.isEmpty_iff] at hnone
        rw [goneTrees, hnone.2, if_neg (by simpa using hnone.1)]
        rfl
      · obtain rfl := Except.ok.inj h
        rw [listing, Option.elim, selected_node]
        simp only [ne_eq, not_true_eq_false, false_or, decide_eq_true_eq]
        rfl

/-! ## What comparisons list -/

section
variable (hold : old.WellFormed) (hnew : new.WellFormed)

include hold in
/-- What the trees of gone children list. -/
theorem mem_goneTrees (hmem : element ∈ (goneTrees old new id).flatMap (selected {})) :
    element.presence = .onlyOld ∧ ∃ branch, old.parent? branch = some id ∧
      new.contains branch = false ∧ (element.id = branch ∨ old.Owns branch element.id) := by
  obtain ⟨_, htree, hmem⟩ := List.mem_flatMap.1 hmem
  obtain ⟨child, hchild, rfl⟩ := List.mem_map.1 htree
  obtain ⟨hchild, hgone⟩ := List.mem_filter.1 hchild
  rw [Bool.and_eq_true, Bool.not_eq_true'] at hgone
  obtain ⟨hpresence, hid⟩ := mem_oneSided hold hmem
  exact ⟨hpresence, child.id, hold.exists_mem_children.1 ⟨child, hchild, rfl⟩, hgone.2, hid⟩

include hold hnew

/-- A comparison lists an object as being in both snapshots exactly if it stands under the same
parent in both. -/
theorem presence_iff_of_mem_compare (htables : old.TablesApart) {depth : Nat}
    {left right : Statement} {tree? : Option Difference}
    (h : compare old new depth left right = .ok tree?) (hleft : old.get? id = some left)
    (hright : new.get? id = some right) (hsame : old.parent? id = new.parent? id)
    (hmem : element ∈ listing tree?) :
    element.presence = .both ↔ old.parent? element.id = new.parent? element.id := by
  induction depth generalizing id left right tree? with
  | zero =>
    obtain rfl := Except.ok.inj h
    cases hmem
  | succ depth ih =>
    obtain ⟨-, rfl⟩ := Snapshot.get?_some hright
    have hid := (Snapshot.get?_some hleft).2
    rcases compare_eq_ok h with ⟨-, rfl⟩ | ⟨-, branches, hbranches, hlisting⟩
    · cases hmem
    rw [hlisting, List.mem_append, List.mem_append] at hmem
    rcases hmem with hmem | hmem | hmem
    · split at hmem
      · obtain rfl := List.mem_singleton.1 hmem
        exact ⟨fun _ => hsame, fun _ => rfl⟩
      · cases hmem
    · obtain ⟨found, hfound, hmem⟩ := List.mem_flatMap.1 hmem
      obtain ⟨child, hchild, hbranch⟩ := (exists_of_forall₂ hbranches).2 found hfound
      have hchild := (List.mem_filter.1 hchild).1
      have hp := hnew.exists_mem_children.1 ⟨child, hchild, rfl⟩
      rw [branch] at hbranch
      split at hbranch
      · next previous hprevious =>
        have hpold := htables.parent?_of_parent? hold hnew
          (Snapshot.contains_iff.2 ⟨previous, hprevious⟩) hp (Snapshot.contains_iff.2 ⟨left, hleft⟩)
        exact ih hbranch hprevious (hnew.mem_children.1 hchild).1 (hpold.trans hp.symm) hmem
      · next hnone =>
        obtain rfl := Except.ok.inj hbranch
        obtain ⟨hpresence, helement⟩ := mem_oneSided hnew hmem
        have hne := hold.parent?_ne_of_branch hnew (Snapshot.not_contains_iff.2 hnone) hp helement
        rw [hpresence]
        simp [hne]
    · obtain ⟨hpresence, branch, hp, hgone, helement⟩ := mem_goneTrees hold hmem
      have hne := hnew.parent?_ne_of_branch hold hgone hp helement
      rw [hpresence]
      simp [Ne.symm hne]

omit hold hnew in
/-- Some elements show what has changed at an object in both snapshots: the element of the object,
and the branches that one of the snapshots only holds, columns aside. -/
structure Shows (old new : Snapshot) (elements : List Element) (id : ObjectId) : Prop where
  changed : (old.fingerprint id).element ≠ (new.fingerprint id).element → ⟨id, .both⟩ ∈ elements
  added : ∀ {branch other}, new.parent? branch = some id → old.contains branch = false →
    (other = branch ∨ new.Owns branch other) → other.kind ≠ .column → ⟨other, .onlyNew⟩ ∈ elements
  gone : ∀ {branch other}, old.parent? branch = some id → new.contains branch = false →
    (other = branch ∨ old.Owns branch other) → other.kind ≠ .column → ⟨other, .onlyOld⟩ ∈ elements

omit hold hnew in
/-- More elements show what some do. -/
theorem Shows.mono {elements others : List Element} (h : Shows old new elements id)
    (hsub : elements ⊆ others) : Shows old new others id :=
  ⟨fun hne => hsub (h.changed hne), fun hp hfresh hid hkind => hsub (h.added hp hfresh hid hkind),
    fun hp hgone hid hkind => hsub (h.gone hp hgone hid hkind)⟩

/-- A comparison shows what has changed at its object. -/
theorem compare_shows_self {depth : Nat} {left right : Statement} {tree? : Option Difference}
    (h : compare old new (depth + 1) left right = .ok tree?) (hleft : old.get? id = some left)
    (hright : new.get? id = some right)
    (hne : (old.fingerprint id).tree ≠ (new.fingerprint id).tree) :
    Shows old new (listing tree?) id := by
  obtain ⟨-, rfl⟩ := Snapshot.get?_some hright
  have hid := (Snapshot.get?_some hleft).2
  rcases compare_eq_ok h with ⟨heq, -⟩ | ⟨-, branches, hbranches, hlisting⟩
  · exact absurd (hid ▸ heq) hne
  rw [hlisting, hid]
  refine ⟨fun hchanged => ?_, fun {branch other} hp hfresh hother hkind => ?_,
    fun {branch other} hp hgone hother hkind => ?_⟩
  · rw [if_pos hchanged]
    exact List.mem_append_left _ (List.mem_singleton_self _)
  · obtain ⟨child, hchild, rfl⟩ := hnew.exists_mem_children.2 hp
    obtain ⟨found, hfound, hbranch⟩ := (exists_of_forall₂ hbranches).1 child
      (List.mem_filter.2 ⟨hchild, decide_eq_true (hnew.ne_column_of_owns hkind hother)⟩)
    rw [Difference.branch, Snapshot.not_contains_iff.1 hfresh] at hbranch
    obtain rfl := Except.ok.inj hbranch
    have hthere : new.contains other = true := by
      rcases hother with rfl | howns
      · exact Snapshot.contains_of_parent? hp
      · exact Snapshot.contains_of_owns howns
    have hdepth := Nat.le_of_lt (hnew.depth_lt_length hthere)
    exact List.mem_append_right _ (List.mem_append_left _ (List.mem_flatMap.2 ⟨_, hfound,
      mem_oneSided_of_owns hnew hother hkind (Nat.le_trans hdepth (Nat.le_add_right _ _))⟩))
  · obtain ⟨child, hchild, rfl⟩ := hold.exists_mem_children.2 hp
    have hthere : old.contains other = true := by
      rcases hother with rfl | howns
      · exact Snapshot.contains_of_parent? hp
      · exact Snapshot.contains_of_owns howns
    have hdepth := Nat.le_of_lt (hold.depth_lt_length hthere)
    refine List.mem_append_right _ (List.mem_append_right _ (List.mem_flatMap.2
      ⟨_, List.mem_map_of_mem (List.mem_filter.2 ⟨hchild, ?_⟩),
        mem_oneSided_of_owns hold hother hkind (Nat.le_trans hdepth (Nat.le_add_right _ _))⟩))
    have hnode := hold.ne_column_of_owns hkind hother
    rw [Bool.and_eq_true, Bool.not_eq_true']
    exact ⟨decide_eq_true hnode, hgone⟩

/-- A comparison reaches everything under its object that is in both snapshots, if the trees on the
way there have different digests. -/
theorem compare_shows_of_prints {depth : Nat} {left right : Statement} {tree? : Option Difference}
    (h : compare old new depth left right = .ok tree?)
    (hleft : old.get? id = some left) (hright : new.get? id = some right)
    (hdepth : new.size ≤ depth + id.kind.depth) {under : ObjectId}
    (hunder : under = id ∨ new.Owns id under) (hsub : under.kind.isSubElement = false)
    (hthere : old.contains under = true)
    (hprints : ∀ owner, old.contains owner = true → new.contains owner = true →
      (under = owner ∨ new.Owns owner under) →
        (old.fingerprint owner).tree ≠ (new.fingerprint owner).tree) :
    Shows old new (listing tree?) under := by
  induction depth generalizing id left right tree? with
  | zero =>
    have : id.kind.depth < new.size :=
      hnew.depth_lt_length (Snapshot.contains_iff.2 ⟨right, hright⟩)
    omega
  | succ depth ih =>
    have hne := hprints id (Snapshot.contains_iff.2 ⟨left, hleft⟩)
      (Snapshot.contains_iff.2 ⟨right, hright⟩) hunder
    rcases hunder with rfl | howns
    · exact compare_shows_self hold hnew h hleft hright hne
    obtain ⟨child, hp, hchild⟩ := Snapshot.exists_child_of_owns howns
    obtain ⟨t, ht, rfl⟩ := hnew.exists_mem_children.2 hp
    obtain ⟨previous, hprevious⟩ : ∃ previous, old.get? t.id = some previous := by
      refine Snapshot.contains_iff.1 ?_
      rcases hchild with rfl | howns
      · exact hthere
      · exact hold.contains_owner (hold.owns_of_owns hnew hsub hthere howns)
    have hcolumn : under.kind ≠ .column := fun heq => by rw [heq] at hsub; cases hsub
    obtain ⟨-, rfl⟩ := Snapshot.get?_some hright
    have hid := (Snapshot.get?_some hleft).2
    rcases compare_eq_ok h with ⟨heq, -⟩ | ⟨-, branches, hbranches, hlisting⟩
    · exact absurd (hid ▸ heq) hne
    obtain ⟨found, hfound, hbranch⟩ := (exists_of_forall₂ hbranches).1 t
      (List.mem_filter.2 ⟨ht, decide_eq_true (hnew.ne_column_of_owns hcolumn hchild)⟩)
    rw [branch, hprevious] at hbranch
    have hdeeper := ObjectKind.depth_of_canBeUnder (hnew.owner_of_parent? hp).2.1
    refine (ih hbranch hprevious (hnew.mem_children.1 ht).1 (by omega) hchild).mono
      fun element helement => ?_
    rw [hlisting]
    exact List.mem_append_right _ (List.mem_append_left _ (List.mem_flatMap.2
      ⟨found, hfound, helement⟩))

/-- A comparison reaches everything under its object that is in both snapshots and under which
something has changed. -/
theorem compare_shows (hprints : old.PrintsTell new) {depth : Nat} {left right : Statement}
    {tree? : Option Difference} (h : compare old new depth left right = .ok tree?)
    (hleft : old.get? id = some left) (hright : new.get? id = some right)
    (hdepth : new.size ≤ depth + id.kind.depth) {under : ObjectId}
    (hunder : under = id ∨ new.Owns id under) (hsub : under.kind.isSubElement = false)
    (hthere : old.contains under = true) (hchanges : old.Changes new under) :
    Shows old new (listing tree?) under := by
  refine compare_shows_of_prints hold hnew h hleft hright hdepth hunder hsub hthere
    fun owner hidOld hidNew howner heq => hprints.tree hidOld hidNew heq ?_
  -- What has changed under the object has changed under its owners.
  obtain ⟨other, howns, hne⟩ := hchanges
  refine ⟨other, ?_, hne⟩
  rcases howner with rfl | howner
  · exact howns
  · exact howns.imp (hold.owns_of_owns hnew hsub hthere howner).trans howner.trans

/-- The tree of two snapshots is that of a comparison of their databases. -/
theorem exists_compare_of_ofSnapshots {tree : Difference} (h : ofSnapshots old new = .ok tree) :
    ∃ left right tree?, old.get? .database = some left ∧ new.get? .database = some right ∧
      compare old new new.size left right = .ok tree? ∧ tree.selected {} = listing tree? := by
  obtain ⟨left, hleft⟩ := Snapshot.contains_iff.1 hold.rooted
  obtain ⟨right, hright⟩ := Snapshot.contains_iff.1 hnew.rooted
  rw [ofSnapshots, hleft, hright] at h
  split at h
  · cases h
  · obtain ⟨tree?, hcompare, h⟩ := bind_eq_ok.1 h
    obtain rfl := Except.ok.inj h
    refine ⟨left, right, tree?, hleft, hright, hcompare, ?_⟩
    cases tree? with
    | none => rfl
    | some tree => rfl

end

end Difference

end SchemaMigration
