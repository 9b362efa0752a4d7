import SchemaMigration.Proofs.Difference.Tree

/-!
# What the elements to migrate tell

The elements that two snapshots give, with nothing filtered out, tell how the snapshots differ
(`Difference.Tells`): everything that does not stand under the same parent on both sides is listed
for each side that holds it, except for columns that come or go with their table; and what moves
from one parent to another one is listed as new before it is listed as gone, so it is taken for new.
-/

namespace SchemaMigration.Difference

variable {old new : Snapshot} {id : ObjectId}

/-- The first element of whatever the new snapshot holds does not say that it is gone. -/
def NewFirst (new : Snapshot) (elements : List Element) : Prop :=
  ∀ id element, new.contains id = true → elements.find? (·.id == id) = some element →
    element.presence ≠ .onlyOld

/-- More elements may be listed behind, if what they would say first to be gone is listed before. -/
theorem NewFirst.append {elements others : List Element} (h : NewFirst new elements)
    (hothers : ∀ id element, new.contains id = true →
      others.find? (·.id == id) = some element → element.presence = .onlyOld →
        ∃ earlier ∈ elements, earlier.id = id) : NewFirst new (elements ++ others) := by
  intro id element hid hfind hpresence
  rw [List.find?_append] at hfind
  cases hfirst : elements.find? (·.id == id) with
  | some first =>
    rw [hfirst, Option.some_or] at hfind
    exact h id element hid (hfirst.trans hfind) hpresence
  | none =>
    rw [hfirst, Option.none_or] at hfind
    obtain ⟨earlier, hearlier, heq⟩ := hothers id element hid hfind hpresence
    exact List.find?_eq_none.1 hfirst earlier hearlier (beq_iff_eq.2 heq)

/-- Several lists behind each other. -/
theorem NewFirst.flatMap {α : Type} {l : List α} {f : α → List Element}
    (h : ∀ a ∈ l, NewFirst new (f a)) : NewFirst new (l.flatMap f) := by
  intro id element hid hfind
  rw [List.find?_flatMap] at hfind
  obtain ⟨a, ha, hfind⟩ := List.exists_of_findSome?_eq_some hfind
  exact h a ha id element hid hfind

section
variable (hold : old.WellFormed) (hnew : new.WellFormed) (htables : old.TablesApart)
include hold hnew htables

/-- A branch that is gone holds nothing of the new snapshot but sub-elements that have moved to a
branch of the new snapshot beside it. -/
theorem exists_new_branch {branch : ObjectId} (hp : old.parent? branch = some id)
    (hgone : new.contains branch = false) {other : ObjectId}
    (hother : other = branch ∨ old.Owns branch other) (hthere : new.contains other = true) :
    ∃ beside, new.parent? beside = some id ∧ old.contains beside = false ∧ new.Owns beside other ∧
      other.kind ≠ .column := by
  have hnotNew : ∀ {owned}, owned.kind.isSubElement = false → new.contains owned = true →
      owned = branch ∨ old.Owns branch owned → False := by
    intro owned hsub howned hbranch
    have : new.contains branch = true := by
      rcases hbranch with rfl | howns
      · exact howned
      · exact hnew.contains_owner (hnew.owns_of_owns hold hsub howned howns)
    rw [hgone] at this
    cases this
  cases hsub : other.kind.isSubElement with
  | false => exact (hnotNew hsub hthere hother).elim
  | true =>
    obtain rfl | howns := hother
    · rw [hgone] at hthere
      cases hthere
    obtain ⟨p, hpold, hpbranch⟩ := Snapshot.exists_parent?_of_owns howns
    obtain ⟨q, hpnew⟩ := hnew.exists_parent? hthere (by rintro rfl; cases hsub)
    have hstem := hold.parent?_eq_of_parents hnew hsub hpold hpnew
    -- The old parent is the branch, since what is above it is in both snapshots.
    obtain rfl : p = branch := hpbranch.resolve_right fun howns => by
      obtain ⟨r, hr, hrbranch⟩ := Snapshot.exists_parent?_of_owns howns
      rw [hr] at hstem
      exact hnotNew (hold.not_isSubElement_of_parent? hr)
        (hnew.owner_of_parent? hstem.symm).1 hrbranch
    have hne := hnew.parent?_ne_of_branch hold hgone hp (.inr howns)
    refine ⟨q, by rw [← hstem, hp], ?_, .single hpnew, fun hcolumn => hne ?_⟩
    · by_contra hq
      rw [Bool.not_eq_false] at hq
      exact hne (by rw [hpnew, htables.parent?_of_parent? hold hnew
        (Snapshot.contains_of_parent? hpold) hpnew hq])
    · rw [hpold, hpnew, hold.parent_eq_of_inline hnew (.inl hcolumn) hpold hpnew]

/-- A comparison lists what is new first. -/
theorem newFirst_compare {depth : Nat} {left right : Statement} {tree? : Option Difference}
    (h : compare old new depth left right = .ok tree?) (hleft : old.get? id = some left)
    (hright : new.get? id = some right) : NewFirst new (listing tree?) := by
  induction depth generalizing id left right tree? with
  | zero =>
    obtain rfl := Except.ok.inj h
    intro id element _ hfind
    cases hfind
  | succ depth ih =>
    obtain ⟨-, rfl⟩ := Snapshot.get?_some hright
    have hidEq := (Snapshot.get?_some hleft).2
    rcases compare_eq_ok h with ⟨-, rfl⟩ | ⟨hne, branches, hbranches, hlisting⟩
    · intro id element _ hfind
      cases hfind
    have hshows := compare_shows_self hold hnew h hleft hright (hidEq ▸ hne)
    have hbranchesFirst : NewFirst new (branches.flatMap listing) := by
      refine .flatMap fun found hfound => ?_
      obtain ⟨child, hchild, hbranch⟩ := (exists_of_forall₂ hbranches).2 found hfound
      have hchild := (List.mem_filter.1 hchild).1
      rw [branch] at hbranch
      split at hbranch
      · next previous hprevious => exact ih hbranch hprevious (hnew.mem_children.1 hchild).1
      · obtain rfl := Except.ok.inj hbranch
        intro id element _ hfind hpresence
        have := (mem_oneSided hnew (List.mem_of_find?_eq_some hfind)).1
        rw [hpresence] at this
        cases this
    have hhead : NewFirst new (if (old.fingerprint left.id).element ≠
        (new.fingerprint right.id).element then [⟨right.id, .both⟩] else []) := by
      intro id element _ hfind hpresence
      have hmem := List.mem_of_find?_eq_some hfind
      split at hmem
      · rw [List.mem_singleton.1 hmem] at hpresence
        cases hpresence
      · cases hmem
    have hfirst := hhead.append fun id element hid hfind hpresence =>
      absurd hpresence (hbranchesFirst id element hid hfind)
    rw [hlisting, ← List.append_assoc]
    refine hfirst.append fun id element hid hfind _ => ?_
    -- What is gone but still there has moved, and is listed as new with a branch beside.
    obtain rfl : element.id = id := by simpa using List.find?_some hfind
    obtain ⟨-, gone, hp, hgone, hother⟩ := mem_goneTrees hold (List.mem_of_find?_eq_some hfind)
    obtain ⟨beside, hpnew, hfresh, howns, hcolumn⟩ :=
      exists_new_branch hold hnew htables hp hgone hother hid
    have hmem := hshows.added (hidEq ▸ hpnew) hfresh (.inr howns) hcolumn
    rw [hlisting, ← List.append_assoc] at hmem
    refine ⟨_, (List.mem_append.1 hmem).resolve_right fun hgoneToo => ?_, rfl⟩
    cases (mem_goneTrees hold hgoneToo).1

end

/-! ## Columns -/

/-- The changes of columns: columns of a table in both snapshots, each said to be on the sides that
hold it. -/
theorem mem_columnChanges {table : ObjectId} {element : Element} (hold : old.WellFormed)
    (hnew : new.WellFormed) (htables : old.TablesApart) (hkind : table.kind = .table)
    (hsame : old.parent? table = new.parent? table)
    (hmem : element ∈ columnChanges old new table) :
    (element.presence = .both ↔ old.parent? element.id = new.parent? element.id) ∧
      (element.presence = .onlyOld → new.contains element.id = false) := by
  rcases List.mem_append.1 hmem with hmem | hmem
  · obtain ⟨column, hcolumn, helement⟩ := List.mem_filterMap.1 hmem
    have hp := hnew.exists_mem_children.1 ⟨column, (List.mem_filter.1 hcolumn).1, rfl⟩
    split at helement
    · next hnone =>
      obtain rfl := Option.some.inj helement
      rw [Snapshot.parent?, hnone, hp]
      simp
    · next previous hprevious =>
      split at helement
      · cases helement
      · obtain rfl := Option.some.inj helement
        have htable : old.contains table = true := by
          obtain ⟨q, hq⟩ := hnew.exists_parent? (hnew.owner_of_parent? hp).1
            (by rintro rfl; cases hkind)
          exact Snapshot.contains_of_parent? (hsame.trans hq)
        have hpold := htables.parent?_of_parent? hold hnew
          (Snapshot.contains_iff.2 ⟨previous, hprevious⟩) hp htable
        simp [hpold, hp]
  · obtain ⟨column, hcolumn, rfl⟩ := List.mem_map.1 hmem
    obtain ⟨hcolumn, hgone⟩ := List.mem_filter.1 hcolumn
    rw [Bool.not_eq_true'] at hgone
    have hp := hold.exists_mem_children.1 ⟨column, (List.mem_filter.1 hcolumn).1, rfl⟩
    refine ⟨⟨fun hboth => (by cases hboth), fun heq => ?_⟩, fun _ => hgone⟩
    rw [hp] at heq
    rw [Snapshot.contains_of_parent? heq.symm] at hgone
    cases hgone

/-- A column that a table has in the new snapshot only is added. -/
theorem added_mem_columnChanges {table : ObjectId} (hnew : new.WellFormed)
    (hkind : id.kind = .column) (hp : new.parent? id = some table)
    (hfresh : old.contains id = false) : ⟨id, .onlyNew⟩ ∈ columnChanges old new table := by
  obtain ⟨s, hs, rfl⟩ := hnew.exists_mem_children.2 hp
  refine List.mem_append_left _ (List.mem_filterMap.2
    ⟨s, List.mem_filter.2 ⟨hs, decide_eq_true hkind⟩, ?_⟩)
  rw [Snapshot.not_contains_iff.1 hfresh]

/-- A column that a table has in the old snapshot only is removed. -/
theorem removed_mem_columnChanges {table : ObjectId} (hold : old.WellFormed)
    (hkind : id.kind = .column) (hp : old.parent? id = some table)
    (hgone : new.contains id = false) : ⟨id, .onlyOld⟩ ∈ columnChanges old new table := by
  obtain ⟨s, hs, rfl⟩ := hold.exists_mem_children.2 hp
  refine List.mem_append_right _ (List.mem_map.2 ⟨s, List.mem_filter.2
    ⟨List.mem_filter.2 ⟨hs, decide_eq_true hkind⟩, ?_⟩, rfl⟩)
  rw [hgone, Bool.not_false]

/-! ## All elements -/

/-- Some elements list what has changed between two snapshots, columns aside. -/
structure Lists (old new : Snapshot) (elements : List Element) : Prop where
  presence : ∀ element ∈ elements,
    (element.presence = .both ↔ old.parent? element.id = new.parent? element.id)
  shows : ∀ {id}, id.kind.isSubElement = false → old.contains id = true →
    new.contains id = true → old.Changes new id → Shows old new elements id
  newFirst : NewFirst new elements

/-- Some elements tell how two snapshots differ. -/
structure Tells (old new : Snapshot) (elements : List Element) : Prop where
  presence : ∀ element ∈ elements,
    (element.presence = .both ↔ old.parent? element.id = new.parent? element.id)
  /-- What is new is listed, except for the columns of new tables. -/
  added : ∀ {id}, new.contains id = true → old.parent? id ≠ new.parent? id →
    (id.kind = .column → ∀ table, new.parent? id = some table → old.contains table = true) →
      ⟨id, .onlyNew⟩ ∈ elements
  /-- What is gone is listed, except for the columns of tables that are gone. -/
  gone : ∀ {id}, old.contains id = true → old.parent? id ≠ new.parent? id →
    (id.kind = .column → ∀ table, old.parent? id = some table → new.contains table = true) →
      ⟨id, .onlyOld⟩ ∈ elements
  newFirst : NewFirst new elements

section
variable {tree : Difference} (hold : old.WellFormed) (hnew : new.WellFormed)
  (holdTables : old.TablesApart)
include hold hnew holdTables

/-- The comparison of two snapshots lists what has changed between them. -/
theorem lists_of_ofSnapshots (hprints : old.PrintsTell new) (h : ofSnapshots old new = .ok tree) :
    Lists old new (tree.selected {}) := by
  obtain ⟨left, right, tree?, hleft, hright, hcompare, hchosen⟩ :=
    exists_compare_of_ofSnapshots hold hnew h
  rw [hchosen]
  refine ⟨fun element hmem => ?_, fun hsub hthere hid hchanges => ?_, ?_⟩
  · exact presence_iff_of_mem_compare hold hnew holdTables hcompare hleft hright
      (by rw [hold.parent?_database, hnew.parent?_database]) hmem
  · exact compare_shows hold hnew hprints hcompare hleft hright (Nat.le_add_right _ _)
      (hnew.owns_database hid) hsub hthere hchanges
  · exact newFirst_compare hold hnew holdTables hcompare hleft hright

omit hold hnew holdTables in
/-- When a column comes or goes without its table, the table is listed, and the column behind it. -/
theorem Lists.column_mem (h : Lists old new (tree.selected {})) (hprints : old.PrintsTell new)
    {table : ObjectId} {presence : Presence} (hkind : id.kind = .column)
    (htable : table.kind = .table)
    (htableOld : old.contains table = true) (htableNew : new.contains table = true)
    (hne : old.parent? id ≠ new.parent? id)
    (hp : old.parent? id = some table ∨ new.parent? id = some table)
    (hmem : ⟨id, presence⟩ ∈ columnChanges old new table) :
    ⟨id, presence⟩ ∈ tree.elements old new {} := by
  have hshows : Shows old new (tree.selected {}) table :=
    h.shows (by rw [htable]; rfl) htableOld htableNew ⟨id, hp.imp .single .single, hne⟩
  -- One fingerprint on both sides would mean that the table has the same columns on both.
  have hchanged : (old.fingerprint table).element ≠ (new.fingerprint table).element := by
    intro heq
    have htells := hprints.element htableOld htableNew heq id hkind
    exact hne ((htells.2 (hp.elim htells.1 fun hp => hp)).trans
      (hp.elim htells.1 fun hp => hp).symm)
  refine List.mem_append_right _ (List.mem_flatMap.2 ⟨⟨table, .both⟩, List.mem_filter.2
    ⟨hshows.changed hchanged, ?_⟩, hmem⟩)
  simp [htable]

/-- What is new is listed, columns aside. -/
theorem Lists.added_mem (h : Lists old new (tree.selected {})) (hid : new.contains id = true)
    (hne : old.parent? id ≠ new.parent? id) (hkind : id.kind ≠ .column) :
    ⟨id, .onlyNew⟩ ∈ tree.selected {} := by
  obtain ⟨branch, stem, hp, hstem, hfresh, hother⟩ :=
    hold.exists_branch_of_ne hnew holdTables hid hne
  have hshows : Shows old new (tree.selected {}) stem :=
    h.shows (hnew.not_isSubElement_of_parent? hp) hstem (hnew.owner_of_parent? hp).1
      ⟨id, .inr (Snapshot.owns_of_branch hp hother), hne⟩
  exact hshows.added hp hfresh hother hkind

omit holdTables in
/-- What is gone is listed, columns aside. -/
theorem Lists.gone_mem (h : Lists old new (tree.selected {})) (hnewTables : new.TablesApart)
    (hid : old.contains id = true) (hne : old.parent? id ≠ new.parent? id)
    (hkind : id.kind ≠ .column) : ⟨id, .onlyOld⟩ ∈ tree.selected {} := by
  obtain ⟨branch, stem, hp, hstem, hgone, hother⟩ :=
    hnew.exists_branch_of_ne hold hnewTables hid hne.symm
  have hshows : Shows old new (tree.selected {}) stem :=
    h.shows (hold.not_isSubElement_of_parent? hp) (hold.owner_of_parent? hp).1 hstem
      ⟨id, .inl (Snapshot.owns_of_branch hp hother), hne⟩
  exact hshows.gone hp hgone hother hkind

/-- What the elements of a column change say is right. -/
theorem Lists.column_sound (h : Lists old new (tree.selected {})) {element : Element}
    (hmem : element ∈ ((tree.selected {}).filter fun element =>
      element.presence = .both && element.id.kind = .table).flatMap fun element =>
        columnChanges old new element.id) :
    (element.presence = .both ↔ old.parent? element.id = new.parent? element.id) ∧
      (element.presence = .onlyOld → new.contains element.id = false) := by
  obtain ⟨table, htable, hmem⟩ := List.mem_flatMap.1 hmem
  obtain ⟨hlisted, htable⟩ := List.mem_filter.1 htable
  rw [Bool.and_eq_true, decide_eq_true_eq, decide_eq_true_eq] at htable
  exact mem_columnChanges hold hnew holdTables htable.2
    ((h.presence table hlisted).1 htable.1) hmem

/-- The elements of the differences of two snapshots tell how these differ. -/
theorem tells_of_ofSnapshots (hnewTables : new.TablesApart) (hprints : old.PrintsTell new)
    (h : ofSnapshots old new = .ok tree) : Tells old new (tree.elements old new {}) := by
  have hlists := lists_of_ofSnapshots hold hnew holdTables hprints h
  refine ⟨fun element hmem => ?_, fun {id} hid hne hcolumns => ?_,
    fun {id} hid hne hcolumns => ?_, ?_⟩
  · rcases List.mem_append.1 hmem with hmem | hmem
    · exact hlists.presence element hmem
    · exact (hlists.column_sound hold hnew holdTables hmem).1
  · by_cases hkind : id.kind = .column
    · obtain ⟨table, hp⟩ := hnew.exists_parent? hid (by rintro rfl; cases hkind)
      obtain ⟨htable, hunder, -⟩ := hnew.owner_of_parent? hp
      have htableOld := hcolumns hkind table hp
      have hfresh : old.contains id = false := by
        by_contra hthere
        rw [Bool.not_eq_false] at hthere
        exact hne ((holdTables.parent?_of_parent? hold hnew hthere hp htableOld).trans hp.symm)
      exact hlists.column_mem hprints hkind
        (ObjectKind.eq_table_of_canBeUnder (.inl hkind) hunder) htableOld htable hne (.inr hp)
        (added_mem_columnChanges hnew hkind hp hfresh)
    · exact List.mem_append_left _ (hlists.added_mem hold hnew holdTables hid hne hkind)
  · by_cases hkind : id.kind = .column
    · obtain ⟨table, hp⟩ := hold.exists_parent? hid (by rintro rfl; cases hkind)
      obtain ⟨htable, hunder, -⟩ := hold.owner_of_parent? hp
      have htableNew := hcolumns hkind table hp
      have hgone : new.contains id = false := by
        by_contra hthere
        rw [Bool.not_eq_false] at hthere
        exact hne (hp.trans (hnewTables.parent?_of_parent? hnew hold hthere hp htableNew).symm)
      exact hlists.column_mem hprints hkind
        (ObjectKind.eq_table_of_canBeUnder (.inl hkind) hunder) htable htableNew hne (.inl hp)
        (removed_mem_columnChanges hold hkind hp hgone)
    · exact List.mem_append_left _ (hlists.gone_mem hold hnew hnewTables hid hne hkind)
  · refine hlists.newFirst.append fun id element hid hfind hpresence => ?_
    obtain rfl : element.id = id := by simpa using List.find?_some hfind
    have hgone := (hlists.column_sound hold hnew holdTables
      (List.mem_of_find?_eq_some hfind)).2 hpresence
    rw [hid] at hgone
    cases hgone

end

end SchemaMigration.Difference
