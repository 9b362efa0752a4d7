import SchemaMigration.Proofs.Ddl.Table
import SchemaMigration.Proofs.Ddl.Verb
import SchemaMigration.Proofs.Dialect.Identifier
import SchemaMigration.Proofs.Snapshot.Sides

/-!
# Comments in PostgreSQL

Comments are set by statements of their own, which begin unlike all others
(`Ddl.Postgres.IsComment`). The statement that sets the comment on a constraint names the constraint
with its table, so no other object has the same one (`Ddl.Postgres.id_of_commentStatement?`).
Creating an object sets the comment on it and, with a table, those on the children that stand in the
definition (`Ddl.Postgres.count_create`); an alteration sets no comment but that on its object.
-/

namespace SchemaMigration.Ddl.Postgres

/-- A statement that sets or removes a comment. -/
def IsComment (sql : String) : Prop := "COMMENT ".toList <+: sql.toList

variable {s t : Statement} {sql : String}

/-! ## Statements that are no comments -/

/-- Definitions are no comments. -/
theorem not_isComment (h : Opens definitionVerbs sql) : ¬ IsComment sql := h.not_prefix (by decide)

/-- An alteration sets no comment but that on its object. -/
theorem comment_of_alter {old : Statement}
    (h : sql ∈ (Decision.ofAlteration (alter old s)).statements) (hcomment : IsComment sql) :
    commentStatement? s = some sql := by
  obtain ⟨_, hfound, change, hchange, rfl⟩ := mem_statements_ofChanges?.1 h
  obtain ⟨changes, hchanges, rfl⟩ := Option.map_eq_some_iff.1 hfound
  rcases List.mem_append.1 hchange with hin | hin
  · exact absurd hcomment (not_isComment (opens_definitionChanges? hchanges hin))
  · obtain ⟨text, htext, rfl⟩ := List.mem_map.1 hin
    rcases List.mem_append.1 htext with howner | hset
    · split at howner
      · exact absurd hcomment (not_isComment
          ((opens_ownerStatement? (Option.mem_toList.1 howner)).mono (by decide)))
      · cases howner
    · split at hset
      · exact Option.mem_toList.1 hset
      · cases hset

/-! ## Comments on constraints -/

/-- A statement about a comment begins as one. -/
theorem isComment_of_commentStatement? (h : commentStatement? s = some sql) : IsComment sql := by
  obtain ⟨target, -, rfl⟩ := Option.map_eq_some_iff.1 h
  rw [IsComment, String.append_assoc, String.append_assoc, String.toList_append]
  exact (by decide : "COMMENT ".toList <+: "COMMENT ON ".toList).trans (List.prefix_append _ _)

/-- What sets a comment is the statement about it. -/
theorem commentStatement?_of_presentComment? (h : presentComment? s = some sql) :
    commentStatement? s = some sql := by
  unfold presentComment? at h
  split at h
  · exact h
  · cases h

/-- Only constraints are named as constraints. -/
theorem kind_of_target? {target x y : String} (h : target? t = some target)
    (heq : target ++ x = "CONSTRAINT " ++ y) : t.definition.kind = .constraint := by
  have hlead : "CONSTRAINT ".toList <+: (target ++ x).toList := by
    rw [heq, String.toList_append]
    exact List.prefix_append _ _
  unfold target? at h
  cases hdefinition : t.definition <;> rw [hdefinition] at h <;> dsimp only at h
  case constraint => rfl
  case database => cases h
  all_goals
    obtain rfl := Option.some.inj h
    refine absurd hlead ?_
    try split
    all_goals
      simp only [String.append_assoc]
      exact Apart.not_prefix (by decide)

/-- A constraint is named with its table. -/
theorem target?_of_constraint (h : s.definition.kind = .constraint) :
    target? s = some ("CONSTRAINT " ++ onTable s.id) := by
  unfold target?
  cases hdefinition : s.definition <;> rw [hdefinition] at h <;> first | rfl | cases h

/-- A constraint is read back from a text that begins with its name and that of its table. -/
theorem onTable_append_inj {schema table name schema' table' name' x y : String}
    (hx : Dialect.Delimits x.toList) (hy : Dialect.Delimits y.toList)
    (h : onTable ⟨.constraint, [schema, table, name]⟩ ++ x =
      onTable ⟨.constraint, [schema', table', name']⟩ ++ y) :
    schema = schema' ∧ table = table' ∧ name = name' := by
  have hon : ∀ rest : String, Dialect.Delimits (" ON " ++ rest).toList := fun rest => by
    rw [String.toList_append]
    exact Dialect.delimits_blank
  simp only [onTable, String.append_assoc] at h
  obtain ⟨hname, h⟩ := Dialect.quote_append_inj (hon _) (hon _) h
  obtain ⟨hschema, htable, -⟩ := Dialect.dotted_append_inj hx hy ((String.append_right_inj _).1 h)
  exact ⟨hschema, htable, hname⟩

section
variable {snapshot : Snapshot} (hsnapshot : snapshot.WellFormed) (htyped : snapshot.Typed)
include hsnapshot htyped

omit htyped in
/-- A constraint is named by its schema, its table and itself. -/
theorem exists_path_of_constraint {id : ObjectId} (hid : snapshot.contains id = true)
    (hkind : id.kind = .constraint) :
    ∃ schema table name, id = ⟨.constraint, [schema, table, name]⟩ := by
  have hlength := hsnapshot.length_path hid
  rw [hkind] at hlength
  obtain ⟨schema, table, name, hpath⟩ := List.length_eq_three.1 hlength
  exact ⟨schema, table, name, by rw [← hkind, ← hpath]⟩

/-- No other object of a snapshot has the statement about the comment on a constraint. -/
theorem id_of_commentStatement? (hs : snapshot.get? s.id = some s)
    (ht : snapshot.get? t.id = some t) (hkind : s.kind = .constraint)
    (hcomment : commentStatement? s = some sql) (hcomment' : commentStatement? t = some sql) :
    t.id = s.id := by
  obtain ⟨target, htarget, rfl⟩ := Option.map_eq_some_iff.1 hcomment
  obtain ⟨target', htarget', heq⟩ := Option.map_eq_some_iff.1 hcomment'
  simp only [String.append_assoc, String.append_right_inj] at heq
  -- Both are named as constraints.
  have hsdefined := (htyped.kind_eq hs).trans hkind
  obtain rfl := Option.some.inj ((target?_of_constraint hsdefined).symm.trans htarget)
  rw [String.append_assoc] at heq
  have htdefined := kind_of_target? htarget' heq
  obtain rfl := Option.some.inj ((target?_of_constraint htdefined).symm.trans htarget')
  rw [String.append_assoc, String.append_right_inj] at heq
  -- The names are read back.
  obtain ⟨schema, table, name, hsid⟩ :=
    exists_path_of_constraint hsnapshot (Snapshot.contains_iff.2 ⟨s, hs⟩) hkind
  obtain ⟨schema', table', name', htid⟩ :=
    exists_path_of_constraint hsnapshot (Snapshot.contains_iff.2 ⟨t, ht⟩)
      ((htyped.kind_eq ht).symm.trans htdefined)
  have his : ∀ rest : String, Dialect.Delimits (" IS " ++ rest).toList := fun rest => by
    rw [String.toList_append]
    exact Dialect.delimits_blank
  rw [hsid, htid] at heq ⊢
  obtain ⟨rfl, rfl, rfl⟩ := onTable_append_inj (his _) (his _) heq
  rfl

variable (hs : snapshot.get? s.id = some s) (ht : snapshot.get? t.id = some t)
  (hkind : s.kind = .constraint) (hcomment : presentComment? s = some sql)
include hs ht hkind hcomment

/-- The comment on a constraint is that of no other object. -/
theorem presentComment?_eq_some_iff : presentComment? t = some sql ↔ t.id = s.id := by
  constructor
  · exact fun h => id_of_commentStatement? hsnapshot htyped hs ht hkind
      (commentStatement?_of_presentComment? hcomment) (commentStatement?_of_presentComment? h)
  · intro hid
    rw [hid, hs] at ht
    rw [← Option.some.inj ht, hcomment]

/-- The comment on a constraint is set by the definition that the constraint stands in. -/
theorem count_innerComments (detached : List ObjectId) :
    (innerComments t (snapshot.children t.id) detached).count sql =
      if snapshot.parent? s.id = some t.id ∧ s.id ∉ detached then 1 else 0 := by
  unfold innerComments
  split
  · have hlines : (snapshot.children t.id).filter (fun child =>
        (tableLine? detached child).isSome) = snapshot.inline detached t.id :=
      List.filter_congr fun child _ =>
        Dialect.isSome_tableLine? (rfl : Dialect.postgres.tableLine? detached child = _)
    rw [hlines, List.count_filterMap,
      ← hsnapshot.countP_inline hs ((htyped.kind_eq hs).trans hkind)]
    refine List.countP_congr fun child hchild => ?_
    have hget := (hsnapshot.mem_children.1 (List.mem_of_mem_filter hchild)).1
    simpa using presentComment?_eq_some_iff hsnapshot htyped hs hget hkind hcomment
  · next hnot =>
    rw [if_neg fun h => ?_]
    · rfl
    -- What owns a constraint is a table.
    have hunder := (hsnapshot.owner_of_parent? h.1).2.1
    rw [show s.id.kind = .constraint from hkind, ← htyped.kind_eq ht] at hunder
    cases hdefinition : t.definition with
    | table definition => exact hnot definition hdefinition
    | _ => rw [hdefinition] at hunder; cases hunder

/-- The comment on a constraint is set once by the creation of the constraint, and once by the
creation of its table if the constraint stands in the definition. -/
theorem count_create (detached : List ObjectId) :
    (create t snapshot detached).count sql =
      (if t.id = s.id then 1 else 0) +
        if snapshot.parent? s.id = some t.id ∧ s.id ∉ detached then 1 else 0 := by
  have hiff := presentComment?_eq_some_iff hsnapshot htyped hs ht hkind hcomment
  have hown : (presentComment? t).toList.count sql = if t.id = s.id then 1 else 0 := by
    rw [← if_congr hiff rfl rfl]
    cases presentComment? t <;> simp [List.count_singleton]
  have hinner := count_innerComments hsnapshot htyped hs ht hkind hcomment detached
  have hisComment :=
    isComment_of_commentStatement? (commentStatement?_of_presentComment? hcomment)
  unfold create
  dsimp only
  split
  · next hnone =>
    -- Only the database has no definition, and it has no comment.
    have hdatabase : t.definition = .database := by
      unfold define? at hnone
      cases hdefinition : t.definition <;> rw [hdefinition] at hnone <;> first | rfl | cases hnone
    rw [← hown, ← hinner]
    simp [presentComment?, commentStatement?, target?, innerComments, hdatabase]
  · next definition hdefinition =>
    have hfirst : definition ≠ sql := by
      rintro rfl
      exact not_isComment (opens_define? hdefinition) hisComment
    have howner : (ownerStatement? t).toList.count sql = 0 := List.count_eq_zero.2 fun hin =>
      not_isComment ((opens_ownerStatement? (Option.mem_toList.1 hin)).mono (by decide)) hisComment
    rw [List.cons_append, List.cons_append, List.count_cons_of_ne hfirst, List.count_append,
      List.count_append, howner, hown, hinner, Nat.zero_add]

end

end SchemaMigration.Ddl.Postgres
