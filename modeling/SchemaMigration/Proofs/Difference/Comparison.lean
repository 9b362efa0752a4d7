import SchemaMigration.Proofs.Difference.Tree

/-!
# Comparisons succeed

Two snapshots of one dialect whose definitions are of the kinds that identities name can always be
compared (`Difference.exists_ofSnapshots`), and whatever the differences list, through any filter,
is held by the sides that it is said to be on (`Difference.held_of_mem_elements`).
-/

namespace SchemaMigration

/-- The sides that an element is said to be on hold it. -/
structure Element.Held (old new : Snapshot) (element : Element) : Prop where
  old : element.presence ≠ .onlyNew → old.contains element.id = true
  new : element.presence ≠ .onlyOld → new.contains element.id = true

namespace Difference

variable {old new : Snapshot} {element : Element} {id : ObjectId}

/-! ## Filters -/

mutual

/-- A filter picks from what a tree lists. -/
theorem selected_eq_filter (filter : SelectionFilter) : ∀ tree : Difference,
    tree.selected filter = (tree.selected {}).filter fun element => filter.includes element.id
  | node element changed children => by
    rw [selected, selected, List.filter_append, selectedAll_eq_filter filter children]
    congr 1
    cases (node element changed children).isDifference <;>
      cases hincludes : filter.includes element.id <;> simp [hincludes]

/-- A filter picks from what several trees list. -/
theorem selectedAll_eq_filter (filter : SelectionFilter) : ∀ trees : List Difference,
    selectedAll filter trees =
      (selectedAll {} trees).filter fun element => filter.includes element.id
  | [] => rfl
  | tree :: trees => by
    rw [selectedAll, selectedAll, List.filter_append, selected_eq_filter filter tree,
      selectedAll_eq_filter filter trees]

end

/-- What is to be migrated is listed by the tree, or is a column of a table that is listed as being
in both snapshots. -/
theorem mem_elements {tree : Difference} {filter : SelectionFilter}
    (hmem : element ∈ tree.elements old new filter) :
    element ∈ tree.selected {} ∨ ∃ table : ObjectId, table.kind = .table ∧
      ⟨table, .both⟩ ∈ tree.selected {} ∧ element ∈ columnChanges old new table := by
  rcases List.mem_append.1 hmem with hmem | hmem
  · rw [selected_eq_filter] at hmem
    exact .inl (List.mem_filter.1 hmem).1
  · obtain ⟨⟨table, presence⟩, htable, hmem⟩ := List.mem_flatMap.1 hmem
    obtain ⟨hlisted, htable⟩ := List.mem_filter.1 htable
    rw [selected_eq_filter] at hlisted
    rw [Bool.and_eq_true, decide_eq_true_eq, decide_eq_true_eq] at htable
    obtain ⟨rfl, hkind⟩ := htable
    exact .inr ⟨table, hkind, (List.mem_filter.1 hlisted).1, hmem⟩

/-! ## Comparisons -/

section
variable (hold : old.WellFormed) (hnew : new.WellFormed)
include hold hnew

omit hold in
/-- Objects of one kind can be compared. -/
theorem exists_compare (htypedOld : old.Typed) (htypedNew : new.Typed) {depth : Nat}
    {left right : Statement} (hleft : old.get? id = some left) (hright : new.get? id = some right) :
    ∃ tree?, compare old new depth left right = .ok tree? := by
  induction depth generalizing id left right with
  | zero => exact ⟨none, rfl⟩
  | succ depth ih =>
    have hkind : left.definition.kind = right.definition.kind :=
      (htypedOld.kind_eq hleft).trans (htypedNew.kind_eq hright).symm
    obtain ⟨kept, hkept⟩ := exists_filterMapM_eq_ok (f := branch old new depth)
      (l := (new.children right.id).filter (·.kind ≠ .column)) fun child hchild => by
        rw [branch]
        split
        · next previous hprevious =>
          exact ih hprevious (hnew.mem_children.1 (List.mem_filter.1 hchild).1).1
        · exact ⟨_, rfl⟩
    unfold compare
    rw [if_neg (not_not.2 hkind)]
    dsimp only
    split
    · exact ⟨none, rfl⟩
    · refine exists_bind_eq_ok hkept ?_
      split <;> exact ⟨_, rfl⟩

/-- What a comparison lists is held by the sides that it is said to be on. -/
theorem held_of_mem_compare {depth : Nat} {left right : Statement} {tree? : Option Difference}
    (h : compare old new depth left right = .ok tree?) (hleft : old.get? id = some left)
    (hright : new.get? id = some right) (hmem : element ∈ listing tree?) :
    element.Held old new := by
  induction depth generalizing id left right tree? with
  | zero =>
    obtain rfl := Except.ok.inj h
    cases hmem
  | succ depth ih =>
    obtain ⟨-, rfl⟩ := Snapshot.get?_some hright
    rcases compare_eq_ok h with ⟨-, rfl⟩ | ⟨-, branches, hbranches, hlisting⟩
    · cases hmem
    rw [hlisting, List.mem_append, List.mem_append] at hmem
    rcases hmem with hmem | hmem | hmem
    · split at hmem
      · obtain rfl := List.mem_singleton.1 hmem
        exact ⟨fun _ => Snapshot.contains_iff.2 ⟨left, hleft⟩,
          fun _ => Snapshot.contains_iff.2 ⟨right, hright⟩⟩
      · cases hmem
    · obtain ⟨found, hfound, hmem⟩ := List.mem_flatMap.1 hmem
      obtain ⟨child, hchild, hbranch⟩ := (exists_of_forall₂ hbranches).2 found hfound
      have hget := (hnew.mem_children.1 (List.mem_filter.1 hchild).1).1
      rw [branch] at hbranch
      split at hbranch
      · next previous hprevious => exact ih hbranch hprevious hget hmem
      · obtain rfl := Except.ok.inj hbranch
        obtain ⟨hpresence, hid⟩ := mem_oneSided hnew hmem
        refine ⟨fun hne => absurd hpresence hne, fun _ => ?_⟩
        rcases hid with hid | howns
        · exact hid ▸ Snapshot.contains_iff.2 ⟨child, hget⟩
        · exact Snapshot.contains_of_owns howns
    · obtain ⟨hpresence, gone, hp, -, hid⟩ := mem_goneTrees hold hmem
      refine ⟨fun _ => ?_, fun hne => absurd hpresence hne⟩
      rcases hid with hid | howns
      · exact hid ▸ Snapshot.contains_of_parent? hp
      · exact Snapshot.contains_of_owns howns

/-- A comparison lists what one side only holds as something under the object, never as the
database. -/
theorem both_or_ne_database_of_mem_compare {depth : Nat} {left right : Statement}
    {tree? : Option Difference} (h : compare old new depth left right = .ok tree?)
    (hmem : element ∈ listing tree?) : element.presence = .both ∨ element.id ≠ .database := by
  have hunder : ∀ {snapshot : Snapshot} {parent child : ObjectId}, snapshot.WellFormed →
      snapshot.parent? child = some parent →
        element.id = child ∨ snapshot.Owns child element.id → element.id ≠ .database := by
    intro snapshot parent child hwf hp hid heq
    have hnone := hwf.parent?_database
    rw [← heq] at hnone
    rcases hid with rfl | howns
    · rw [hp] at hnone
      cases hnone
    · obtain ⟨owner, howner, -⟩ := Snapshot.exists_parent?_of_owns howns
      rw [howner] at hnone
      cases hnone
  induction depth generalizing left right tree? with
  | zero =>
    obtain rfl := Except.ok.inj h
    cases hmem
  | succ depth ih =>
    rcases compare_eq_ok h with ⟨-, rfl⟩ | ⟨-, branches, hbranches, hlisting⟩
    · cases hmem
    rw [hlisting, List.mem_append, List.mem_append] at hmem
    rcases hmem with hmem | hmem | hmem
    · split at hmem
      · rw [List.mem_singleton.1 hmem]
        exact .inl rfl
      · cases hmem
    · obtain ⟨found, hfound, hmem⟩ := List.mem_flatMap.1 hmem
      obtain ⟨child, hchild, hbranch⟩ := (exists_of_forall₂ hbranches).2 found hfound
      rw [branch] at hbranch
      split at hbranch
      · exact ih hbranch hmem
      · obtain rfl := Except.ok.inj hbranch
        have hp := hnew.exists_mem_children.1 ⟨child, (List.mem_filter.1 hchild).1, rfl⟩
        exact .inr (hunder hnew hp (mem_oneSided hnew hmem).2)
    · obtain ⟨-, gone, hp, -, hid⟩ := mem_goneTrees hold hmem
      exact .inr (hunder hold hp hid)

/-- The changes of columns are of columns that the sides hold that they are said to be on. -/
theorem held_of_mem_columnChanges {table : ObjectId}
    (hmem : element ∈ columnChanges old new table) :
    element.Held old new := by
  rcases List.mem_append.1 hmem with hmem | hmem
  · obtain ⟨column, hcolumn, helement⟩ := List.mem_filterMap.1 hmem
    have hthere := Snapshot.contains_of_parent?
      (hnew.exists_mem_children.1 ⟨column, (List.mem_filter.1 hcolumn).1, rfl⟩)
    split at helement
    · obtain rfl := Option.some.inj helement
      exact ⟨fun hne => absurd rfl hne, fun _ => hthere⟩
    · next previous hprevious =>
      split at helement
      · cases helement
      · obtain rfl := Option.some.inj helement
        exact ⟨fun _ => Snapshot.contains_iff.2 ⟨previous, hprevious⟩, fun _ => hthere⟩
  · obtain ⟨column, hcolumn, rfl⟩ := List.mem_map.1 hmem
    have hcolumn := (List.mem_filter.1 hcolumn).1
    exact ⟨fun _ => Snapshot.contains_of_parent?
      (hold.exists_mem_children.1 ⟨column, (List.mem_filter.1 hcolumn).1, rfl⟩),
      fun hne => absurd rfl hne⟩

/-! ## Snapshots -/

omit hold hnew in
/-- The tree of differences is that of a comparison of the databases. -/
theorem ofSnapshots_eq {left right : Statement} (hdialect : old.dialect = new.dialect)
    (hleft : old.get? .database = some left) (hright : new.get? .database = some right)
    {tree? : Option Difference} (hcompare : compare old new new.size left right = .ok tree?) :
    ofSnapshots old new = .ok (tree?.getD (node ⟨.database, .both⟩ false [])) := by
  rw [ofSnapshots, if_neg (not_not.2 hdialect), hleft, hright]
  exact bind_eq_ok.2 ⟨tree?, hcompare, rfl⟩

/-- The databases of two snapshots of one dialect are compared, and the tree lists what the
comparison does. -/
theorem exists_ofSnapshots (htypedOld : old.Typed) (htypedNew : new.Typed)
    (hdialect : old.dialect = new.dialect) :
    ∃ left right tree?, old.get? .database = some left ∧ new.get? .database = some right ∧
      compare old new new.size left right = .ok tree? ∧
      ∃ tree, ofSnapshots old new = .ok tree ∧ tree.selected {} = listing tree? := by
  obtain ⟨left, hleft⟩ := Snapshot.contains_iff.1 hold.rooted
  obtain ⟨right, hright⟩ := Snapshot.contains_iff.1 hnew.rooted
  obtain ⟨tree?, hcompare⟩ : ∃ tree?, compare old new new.size left right = .ok tree? :=
    exists_compare hnew htypedOld htypedNew hleft hright
  refine ⟨left, right, tree?, hleft, hright, hcompare, _,
    ofSnapshots_eq hdialect hleft hright hcompare, ?_⟩
  cases tree? <;> rfl

/-- Whatever is to be migrated is held by the sides that it is said to be on. -/
theorem held_of_mem_elements {left right : Statement} {tree? : Option Difference}
    {tree : Difference} {filter : SelectionFilter} (hleft : old.get? .database = some left)
    (hright : new.get? .database = some right)
    (hcompare : compare old new new.size left right = .ok tree?)
    (hselected : tree.selected {} = listing tree?) (hmem : element ∈ tree.elements old new filter) :
    element.Held old new := by
  rcases mem_elements hmem with hmem | ⟨table, -, -, hmem⟩
  · exact held_of_mem_compare hold hnew hcompare hleft hright (hselected ▸ hmem)
  · exact held_of_mem_columnChanges hold hnew hmem

/-- The database is only ever to be migrated as being on both sides. -/
theorem both_or_ne_database_of_mem_elements {left right : Statement} {tree? : Option Difference}
    {tree : Difference} {filter : SelectionFilter}
    (hcompare : compare old new new.size left right = .ok tree?)
    (hselected : tree.selected {} = listing tree?) (hmem : element ∈ tree.elements old new filter) :
    element.presence = .both ∨ element.id ≠ .database := by
  rcases mem_elements hmem with hmem | ⟨table, -, -, hmem⟩
  · exact both_or_ne_database_of_mem_compare hold hnew hcompare (hselected ▸ hmem)
  refine .inr fun heq => ?_
  have hkind : element.id.kind = .column := by
    rcases List.mem_append.1 hmem with hmem | hmem
    · obtain ⟨column, hcolumn, helement⟩ := List.mem_filterMap.1 hmem
      have hcolumn : column.id.kind = .column :=
        of_decide_eq_true (List.mem_filter.1 hcolumn).2
      split at helement
      · rw [← Option.some.inj helement, hcolumn]
      · split at helement
        · cases helement
        · rw [← Option.some.inj helement, hcolumn]
    · obtain ⟨column, hcolumn, rfl⟩ := List.mem_map.1 hmem
      exact of_decide_eq_true (List.mem_filter.1 (List.mem_filter.1 hcolumn).1).2
  rw [heq] at hkind
  cases hkind

end

end Difference

end SchemaMigration
