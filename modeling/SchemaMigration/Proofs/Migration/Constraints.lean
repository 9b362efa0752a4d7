import SchemaMigration.Migration.Script
import SchemaMigration.Proofs.Ddl.Postgres
import SchemaMigration.Proofs.Migration.Cycles
import SchemaMigration.Proofs.Plan.Alteration

/-!
# Constraints of created tables

A constraint of a table that is created has its place either in the definition of the table or in a
creation of its own (`Migration.constraint_emitted_once`). Which of the two it is, is said by the
detached constraints of the last round of breaking cycles: the order of the steps and the
definitions of tables in each dialect look at the same ones. A constraint that is not detached goes
with its table in whatever way it was selected, and so has neither a creation nor an alteration.
-/

namespace SchemaMigration

namespace Migration

variable {m : Migration}

/-- The statements that alter an object. -/
def alterations (m : Migration) (id : ObjectId) : List String :=
  (m.actions.filter (·.key = ⟨.alter, id⟩)).flatMap (·.statements)

/-- The creation of a table begins with its definition, which has a line for each of some
children. -/
def Defines (m : Migration) (table : ObjectId) (children : List Statement) : Prop :=
  ∃ action ∈ m.actions, action.key = ⟨.create, table⟩ ∧ ∃ definition lines rest,
    action.statement.definition = .table definition ∧
      m.statementsOf action =
        .ok (m.new.dialect.tableText action.statement definition lines :: rest) ∧
      List.Forall₂ (fun child line => m.new.dialect.tableLine? m.detached child = .ok (some line))
        children lines

/-- What is not altered has no statements that alter it. -/
theorem alterations_eq_nil {id : ObjectId} (h : ⟨.alter, id⟩ ∉ m.keys) : m.alterations id = [] := by
  rw [alterations, List.filter_eq_nil_iff.2, List.flatMap_nil]
  intro action haction hkey
  exact h (List.mem_map.2 ⟨action, haction, of_decide_eq_true hkey⟩)

/-! ## Actions of constraints -/

section
variable {st : Staging} {planned : List Step} (h : m.Runs st planned) {table constraint : ObjectId}
  (hnew : st.plan.new.WellFormed) (hkind : constraint.kind = .constraint)
  (hparent : st.plan.new.parent? constraint = some table) (htable : ⟨.create, table⟩ ∈ m.keys)
include h hnew hkind hparent htable

omit hkind in
/-- The entry of a created table creates it. -/
theorem Runs.exists_entry_of_owner : ∃ entry ∈ st.plan.entries, entry.id = table ∧
    entry.treatment.creates = true := by
  have hsub := hnew.not_isSubElement_of_parent? hparent
  obtain ⟨entry, hentry, hid, hasks⟩ :=
    (Staging.key_mem_planned h.steps).1 (h.mem_planned hsub htable)
  exact ⟨entry, hentry, hid, (Bool.and_eq_true_iff.1 hasks).1⟩

/-- A constraint of a created table is created or altered by itself only if it is detached. -/
theorem Runs.mem_detached_of_mem_keys (hplan : st.plan.Distinct) {kind : StepKind}
    (hcreates : kind = .create ∨ kind = .alter) (hkey : ⟨kind, constraint⟩ ∈ m.keys) :
    constraint ∈ m.detached := by
  rcases h.mem_keys.1 hkey with hplanned | hdetached
  · obtain ⟨entry, hentry, rfl, hasks⟩ := (Staging.key_mem_planned h.steps).1 hplanned
    obtain ⟨owner, howner, rfl, hownerCreates⟩ := h.exists_entry_of_owner hnew hparent htable
    have hsub : entry.id.kind.isSubElement = true := by rw [hkind]; rfl
    -- The constraint would go with its table if it were not detached.
    have hcreated : st.plan.createdWithTable entry.id = true :=
      (Plan.createdWithTable_iff hnew (Snapshot.contains_of_parent? hparent)).2
        ⟨hsub, owner.id, hparent, owner, hplan.get?_of_mem howner, hownerCreates⟩
    have hspared : st.spared entry.id kind = true := by
      rcases hcreates with rfl | rfl <;> exact hcreated
    by_contra hin
    exact (Staging.asks_iff.1 hasks).2 ⟨hspared, h.travels_iff.2 (.inr ⟨hkind, hin⟩)⟩
  · rw [h.detached, ObjectId.mem_sortedSet]
    exact (Staging.key_mem_detachedSteps.1 hdetached).1

/-- A detached constraint of a created table is created by itself. -/
theorem Runs.create_mem_keys_of_detached (hdetached : constraint ∈ m.detached) :
    ⟨.create, constraint⟩ ∈ m.keys := by
  by_contra hnot
  have htravels := h.travels_of_absent (.inl rfl) hnew hnot (.inr hkind) hparent htable
  rcases h.travels_iff.1 htravels with hcolumn | ⟨-, hnotDetached⟩
  · rw [hkind] at hcolumn
    cases hcolumn
  · exact hnotDetached hdetached

end

/-- Where the elements name the right sides, a constraint of a created table is not altered: a table
that was not there had no constraints, and the constraints of a recreated table are created with
it. -/
theorem Derives.not_altered_of_agrees {old new : Snapshot} {elements : List Element}
    {extra : ExtraDependencies} {plan : Plan} {st : Staging} {planned : List Step}
    (h : m.Derives old new elements extra plan st planned) (hold : old.WellFormed)
    (hnew : new.WellFormed) (helements : ∀ element ∈ elements, element.Agrees old new)
    {table constraint : ObjectId} (hkind : constraint.kind = .constraint)
    (hparent : new.parent? constraint = some table) (htable : ⟨.create, table⟩ ∈ m.keys) :
    ⟨.alter, constraint⟩ ∉ m.keys := by
  intro hkey
  obtain rfl := h.planNew
  obtain rfl := h.planOld
  obtain ⟨owner, howner, rfl, hcreates⟩ := h.runs.exists_entry_of_owner hnew hparent htable
  have hsub := hnew.not_isSubElement_of_parent? hparent
  -- The alteration was planned, since detached constraints get no other steps than drops and
  -- creations.
  obtain ⟨entry, hentry, rfl, hasks⟩ : ∃ entry ∈ st.plan.entries, entry.id = constraint ∧
      st.asks entry .alter = true := by
    rcases h.runs.mem_keys.1 hkey with hplanned | hdetached
    · exact (Staging.key_mem_planned h.runs.steps).1 hplanned
    · obtain ⟨-, hkinds, -⟩ := Staging.key_mem_detachedSteps.1 hdetached
      simp at hkinds
  have hget := h.distinct.get?_of_mem hentry
  have halters : entry.treatment.alters = true := (Bool.and_eq_true_iff.1 hasks).1
  cases htreatment : owner.treatment with
  | recreate =>
    obtain ⟨found, hfound, hnot, -⟩ := h.complete.returned
      ⟨owner, h.distinct.get?_of_mem howner, htreatment⟩ hparent (by rw [hkind]; simp)
    obtain rfl := Option.some.inj (hget.symm.trans hfound)
    rw [halters] at hnot
    cases hnot
  | create =>
    rcases h.created_of_agrees helements (h.distinct.get?_of_mem howner) htreatment with
      habsent | ⟨hsub', -⟩
    · -- The constraint is there before, and its path leads to the table.
      have hthere := (h.grounded _ entry hget).old fun hcreate => by
        rw [hcreate] at halters
        cases halters
      obtain ⟨before, hbefore⟩ := hold.exists_parent? hthere fun heq => by
        rw [heq] at hkind
        cases hkind
      obtain rfl := hold.parent_eq_of_inline hnew (.inr hkind) hbefore hparent
      rw [(hold.owner_of_parent? hbefore).1] at habsent
      cases habsent
    · rw [hsub] at hsub'
      cases hsub'
  | drop | alter | alterWithDependents | nothing => rw [htreatment] at hcreates; cases hcreates

/-! ## Statements of actions -/

/-- The creation of a table defines it with the children that stand in its definition. -/
theorem Runs.defines {st : Staging} {planned : List Step} (h : m.Runs st planned)
    (htyped : st.plan.new.Typed) {body : List String} (hbody : m.statements = .ok body)
    {table : ObjectId} (hkind : table.kind = .table) (htable : ⟨.create, table⟩ ∈ m.keys) :
    m.Defines table (st.plan.new.inline m.detached table) := by
  obtain ⟨action, haction, hkey⟩ := List.mem_map.1 htable
  obtain ⟨lists, hlists, -⟩ := bind_eq_ok.1 hbody
  obtain ⟨statements, -, hstatements⟩ := (exists_of_forall₂ (mapM_eq_ok.1 hlists)).1 action haction
  have hs := (h.statement?_of_action haction).2
  rw [hkey] at hs
  obtain ⟨definition, hdefinition⟩ :
      ∃ definition, action.statement.definition = .table definition := by
    have hdefined := (htyped.kind_eq hs).trans hkind
    cases hdefinition : action.statement.definition with
    | table definition => exact ⟨definition, rfl⟩
    | _ => rw [hdefinition] at hdefined; cases hdefined
  have hof := hstatements
  rw [Migration.statementsOf, show action.kind = .create from congrArg StepKey.kind hkey] at hof
  obtain ⟨lines, rest, rfl, hlines⟩ := Dialect.create_table hdefinition hof
  rw [h.new, show action.statement.id = table from congrArg StepKey.id hkey] at hlines
  exact ⟨action, haction, hkey, definition, lines, rest, hdefinition, hstatements, h.new ▸ hlines⟩

/-- What the actions emit of a text, if one action does once and the others only among the
statements of an alteration. -/
theorem count_flatten {sql : String} {creator altered : StepKey} {actions : List Action}
    {lists : List (List String)}
    (h : List.Forall₂ (fun action list => m.statementsOf action = .ok list) actions lists)
    (hcount : ∀ action ∈ actions, ∀ list, m.statementsOf action = .ok list →
      list.count sql = (if action.key = creator then 1 else 0) +
        if action.key = altered then action.statements.count sql else 0) :
    lists.flatten.count sql = (actions.map (·.key)).count creator +
      ((actions.filter (·.key = altered)).flatMap (·.statements)).count sql := by
  induction h with
  | nil => rfl
  | @cons action list actions lists hlist _ ih =>
    have hfirst := hcount action List.mem_cons_self list hlist
    have hrest := ih fun other hother => hcount other (List.mem_cons_of_mem _ hother)
    rw [List.flatten_cons, List.count_append, hfirst, hrest, List.map_cons, List.count_cons,
      List.filter_cons]
    by_cases haltered : action.key = altered
    · simp only [haltered, if_true, decide_true, List.flatMap_cons, List.count_append, beq_iff_eq]
      omega
    · simp only [haltered, if_false, decide_false, beq_iff_eq, Bool.false_eq_true]
      omega

section
variable {old new : Snapshot} {elements : List Element} {extra : ExtraDependencies} {plan : Plan}
  {st : Staging} {planned : List Step} (h : m.Derives old new elements extra plan st planned)
  (hnew : new.WellFormed) (htyped : new.Typed) (hdialect : new.dialect = .postgres)
  {s : Statement} (hs : new.get? s.id = some s) (hkind : s.kind = .constraint) {sql : String}
  (hcomment : Ddl.Postgres.presentComment? s = some sql)
include h hnew htyped hdialect hs hkind hcomment

/-- No alteration sets the comment on a constraint but that of the constraint. -/
theorem Derives.not_mem_statements {action : Action} (haction : action ∈ m.actions)
    (hne : action.key ≠ ⟨.alter, s.id⟩) : sql ∉ action.statements := by
  intro hsql
  obtain rfl := h.planNew
  have hset := Ddl.Postgres.commentStatement?_of_presentComment? hcomment
  obtain ⟨step, hstep, hof⟩ := h.runs.actions action haction
  have hkey := key_of_action? (Snapshot.get?_some
    (Staging.statement?_of_mem_allSteps h.runs.steps hstep)).2 hof
  obtain ⟨treatment, -, rfl⟩ := Option.map_eq_some_iff.1 hof
  dsimp only at hsql
  split at hsql
  · next halter =>
    cases hentry : st.plan.get? step.key.id with
    | none =>
      rw [hentry] at hsql
      cases hsql
    | some entry =>
      rw [hentry] at hsql
      have hfounded := h.edited.founded h.initial.new h.initial.grounded
        (Plan.founded_of_ofElements h.selected)
      rcases hfounded _ entry hentry sql hsql with ⟨before, t, alteration, -, ht, halters, hin⟩ |
        hrefreshed
      · rw [hdialect] at halters
        obtain rfl := Except.ok.inj halters
        have htid := (Snapshot.get?_some ht).2
        have heq := Ddl.Postgres.id_of_commentStatement? hnew htyped hs (htid.symm ▸ ht) hkind hset
          (Ddl.Postgres.comment_of_alter hin (Ddl.Postgres.isComment_of_commentStatement? hset))
        refine hne (hkey.trans ?_)
        rw [← heq, htid, ← halter]
      · -- Nothing is refreshed in place in PostgreSQL.
        rw [Plan.inPlace?, if_pos rfl, hdialect] at hrefreshed
        obtain ⟨_, -, hsome⟩ := Option.bind_eq_some_iff.1 hrefreshed
        cases hsome
  · cases hsql

/-- The comment on a constraint of a created table is set by the creation of the constraint or else
by that of the table. -/
theorem Derives.count_statementsOf {table : ObjectId} (hparent : new.parent? s.id = some table)
    (htable : ⟨.create, table⟩ ∈ m.keys) {action : Action} (haction : action ∈ m.actions)
    {list : List String} (hlist : m.statementsOf action = .ok list) :
    list.count sql =
      (if action.key = ⟨.create, if s.id ∈ m.detached then s.id else table⟩ then 1 else 0) +
        if action.key = ⟨.alter, s.id⟩ then action.statements.count sql else 0 := by
  obtain rfl := h.planNew
  have hisComment := Ddl.Postgres.isComment_of_commentStatement?
    (Ddl.Postgres.commentStatement?_of_presentComment? hcomment)
  obtain ⟨hkey, hstatement⟩ := h.runs.statement?_of_action haction
  have hothers := h.not_mem_statements hnew htyped hdialect hs hkind hcomment haction
  rw [Migration.statementsOf, h.runs.new, hdialect] at hlist
  unfold Action.key at hkey hstatement hothers ⊢
  cases haction : action.kind <;> rw [haction] at hlist hkey hstatement hothers <;>
    obtain rfl := Except.ok.inj hlist <;>
    simp only [StepKey.mk.injEq, reduceCtorEq, true_and, false_and, if_false, Nat.add_zero,
      Nat.zero_add]
  case create =>
    rw [Ddl.Postgres.count_create hnew htyped hs hstatement hkind hcomment, hparent]
    by_cases hdetached : s.id ∈ m.detached
    · simp only [hdetached, not_true, and_false, if_true, if_false, Nat.add_zero]
    · have hne : action.statement.id ≠ s.id := fun heq => hdetached
        (h.runs.mem_detached_of_mem_keys hnew hkind hparent htable h.distinct (.inl rfl)
          (heq ▸ hkey))
      simp only [hdetached, not_false_eq_true, and_true, hne, if_false, Nat.zero_add,
        Option.some.injEq, eq_comm]
  case drop =>
    exact List.count_eq_zero.2 fun hin =>
      Ddl.Postgres.not_isComment (Ddl.Postgres.opens_drop hin) hisComment
  case alter =>
    split
    · rfl
    · next hne => exact List.count_eq_zero.2 (hothers fun heq => hne (StepKey.mk.inj heq).2)
  case passThrough => rfl

end

/-! ## Constraints of created tables -/

/-- **A constraint of a created table is emitted once.** The creation of the table begins with its
definition, which has a line for each child that stands in it. Either the constraint is not detached
and stands there once, without a creation of its own, or it is detached and does not stand there,
but is created once, after the table. In PostgreSQL the comment on it is set once, not counting the
statements that alter the constraint, and there are none of these unless it is detached and some
element does not name the sides that hold its object. -/
theorem constraint_emitted_once {old new : Snapshot} {elements : List Element}
    {extra : ExtraDependencies} (hold : old.WellFormed) (hnew : new.WellFormed)
    (htyped : new.Typed) (hm : ofElements old new elements extra = .ok m) {body : List String}
    (hbody : m.statements = .ok body) {table constraint : ObjectId}
    (htable : ⟨.create, table⟩ ∈ m.keys) (hkind : constraint.kind = .constraint)
    (hparent : new.parent? constraint = some table) :
    m.Defines table (new.inline m.detached table) ∧
    (constraint ∉ m.detached ∧
        (new.inline m.detached table).countP (·.id = constraint) = 1 ∧
        ⟨.create, constraint⟩ ∉ m.keys ∨
      constraint ∈ m.detached ∧
        (new.inline m.detached table).countP (·.id = constraint) = 0 ∧
        m.keys.count ⟨.create, constraint⟩ = 1 ∧
        m.RunsBefore ⟨.create, table⟩ ⟨.create, constraint⟩) ∧
    (new.dialect = .postgres → ∀ s sql, new.get? constraint = some s →
      Ddl.Postgres.presentComment? s = some sql →
      body.count sql = 1 + (m.alterations constraint).count sql) ∧
    (constraint ∉ m.detached ∨ (∀ element ∈ elements, element.Agrees old new) →
      m.alterations constraint = []) := by
  obtain ⟨plan, st, planned, h⟩ := exists_derives hold hnew hm
  obtain rfl := h.planNew
  obtain ⟨s, hs, hsparent⟩ := Snapshot.parent?_eq_some.1 hparent
  obtain ⟨-, rfl⟩ := Snapshot.get?_some hs
  have hnodup := h.runs.nodup_keys h.distinct
  have hown : ∀ {kind : StepKind}, kind = .create ∨ kind = .alter → ⟨kind, s.id⟩ ∈ m.keys →
      s.id ∈ m.detached :=
    h.runs.mem_detached_of_mem_keys hnew hkind hparent htable h.distinct
  have hcreated := h.runs.create_mem_keys_of_detached hnew hkind hparent htable
  have htableKind : table.kind = .table :=
    ObjectKind.eq_table_of_canBeUnder (.inr hkind) (hnew.owner_of_parent? hparent).2.1
  have hinline := hnew.countP_inline hs ((htyped.kind_eq hs).trans hkind) m.detached table
  refine ⟨h.runs.defines htyped hbody htableKind htable, ?_, fun hdialect s' sql hs' hcomment => ?_,
    fun hcases => ?_⟩
  · by_cases hdetached : s.id ∈ m.detached
    · refine .inr ⟨hdetached, ?_, List.count_eq_one_of_mem hnodup (hcreated hdetached),
        h.runs.owner_created_first hnew hparent htable (hcreated hdetached)⟩
      rw [hinline, if_neg fun h => h.2 hdetached]
    · exact .inl ⟨hdetached, by rw [hinline, if_pos ⟨hparent, hdetached⟩],
        fun hkey => hdetached (hown (.inl rfl) hkey)⟩
  · obtain rfl := Option.some.inj (hs.symm.trans hs')
    obtain ⟨lists, hlists, hflatten⟩ := bind_eq_ok.1 hbody
    obtain rfl := Except.ok.inj hflatten
    rw [count_flatten (mapM_eq_ok.1 hlists) fun action haction list hlist =>
      h.count_statementsOf hnew htyped hdialect hs hkind hcomment hparent htable haction hlist]
    refine congrArg (· + _) (List.count_eq_one_of_mem hnodup ?_)
    split
    · next hdetached => exact hcreated hdetached
    · exact htable
  · refine alterations_eq_nil fun hkey => ?_
    rcases hcases with hdetached | helements
    · exact hdetached (hown (.inr rfl) hkey)
    · exact h.not_altered_of_agrees hold hnew helements hkind hparent htable hkey

namespace MutualKeys

/-- The statement that sets the comment on the first foreign key. -/
def comment : String := "COMMENT ON CONSTRAINT key ON a.s IS 'c'"

/-- The first foreign key has that comment. -/
theorem presentComment?_foreignKey :
    ((snapshot (some "c")).get? (foreignKey "s")).bind Ddl.Postgres.presentComment? =
      some comment := by decide +kernel

/-- The foreign key of the first table is created once beside the table, and its comment is set
once. -/
theorem foreignKey_emitted_once :
    ∃ m body, ofElements blank (snapshot (some "c")) created {} = .ok m ∧
      m.statements = .ok body ∧ m.keys.count ⟨.create, foreignKey "s"⟩ = 1 ∧
      m.RunsBefore ⟨.create, table "s"⟩ ⟨.create, foreignKey "s"⟩ ∧ body.count comment = 1 := by
  obtain ⟨m, hm, htest⟩ := exists_ok_of_test (p := fun m : Migration =>
      decide (⟨.create, table "s"⟩ ∈ m.keys ∧ foreignKey "s" ∈ m.detached) &&
        m.statements.toOption.any fun _ => true)
    (show (ofElements blank (snapshot (some "c")) created {}).toOption.any _ = true by
      decide +kernel)
  obtain ⟨hof, hstatements⟩ := Bool.and_eq_true_iff.1 htest
  obtain ⟨htable, hdetached⟩ := of_decide_eq_true hof
  obtain ⟨body, hbody, -⟩ := exists_ok_of_test hstatements
  obtain ⟨-, hcases, hcomment, haltered⟩ := constraint_emitted_once (by decide +kernel)
    (by decide +kernel) (by decide +kernel) hm hbody htable
    (rfl : (foreignKey "s").kind = .constraint) rfl
  obtain ⟨s, hs, hset⟩ := Option.bind_eq_some_iff.1 presentComment?_foreignKey
  obtain ⟨-, -, hcount, hbefore⟩ := hcases.resolve_left fun h => h.1 hdetached
  refine ⟨m, body, hm, hbody, hcount, hbefore, ?_⟩
  rw [hcomment rfl s comment hs hset, haltered (.inr (by decide +kernel)), List.count_nil]

/-- Both tables are said to be new, and the first foreign key to be there before as well. -/
def restated : List Element :=
  [⟨table "s", .onlyNew⟩, ⟨table "t", .onlyNew⟩, ⟨foreignKey "s", .both⟩]

/-- A foreign key of a new table that is said to be there before is created beside its table and
altered as well, and its comment is set twice. -/
theorem comment_set_twice :
    ∃ m body, ofElements (snapshot none) (snapshot (some "c")) restated {} = .ok m ∧
      m.statements = .ok body ∧ ⟨.create, table "s"⟩ ∈ m.keys ∧
      (snapshot (some "c")).parent? (foreignKey "s") = some (table "s") ∧
      ((snapshot (some "c")).get? (foreignKey "s")).bind Ddl.Postgres.presentComment? =
        some comment ∧ body.count comment = 2 := by
  obtain ⟨m, hm, htest⟩ := exists_ok_of_test (p := fun m : Migration =>
      decide (⟨.create, table "s"⟩ ∈ m.keys) &&
        m.statements.toOption.any fun body : List String => decide (body.count comment = 2))
    (show (ofElements (snapshot none) (snapshot (some "c")) restated {}).toOption.any _ = true by
      decide +kernel)
  obtain ⟨htable, hstatements⟩ := Bool.and_eq_true_iff.1 htest
  obtain ⟨body, hbody, hcount⟩ := exists_ok_of_test hstatements
  exact ⟨m, body, hm, hbody, of_decide_eq_true htable, rfl, presentComment?_foreignKey,
    of_decide_eq_true hcount⟩

end MutualKeys

end Migration

end SchemaMigration
