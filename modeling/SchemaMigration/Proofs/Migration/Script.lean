import SchemaMigration.Migration.Script
import SchemaMigration.Proofs.Difference.Comparison
import SchemaMigration.Proofs.Migration.Provenance
import SchemaMigration.Proofs.Migration.Refreshes
import SchemaMigration.Proofs.Script.Buffer

/-!
# Scripts of migrations

A migration has an empty script exactly if it touches nothing (`Migration.script_wraps_actions`).
For nothing is selected about the database (`Plan.id_ne_database_of_ofElements`), what is selected
stays in the plan, and it has an action of its own or goes with a table that has one
(`Migration.Derives.exists_action`). Every action on anything but the database has a statement that
is not blank (`Migration.Derives.exists_opens_of_action`): definitions begin with a verb, and an
entry that alters has the statements of an alteration or a refresh. So the fragments of a script are
its settings, the start of its transaction, texts of the user, what the actions leave, more texts of
the user, and the end of the transaction.
-/

namespace SchemaMigration

/-! ## The database is not selected -/

/-- Nothing is to be done about the database. -/
theorem Dialect.decideOn_database {dialect : Dialect} {s t : Statement} {decision : Decision}
    (hs : s.definition = .database) (ht : t.definition = .database) (hid : t.id = .database)
    (h : dialect.decideOn .database (some s) (some t) = .ok decision) :
    decision.treatment = .nothing := by
  simp only [decideOn] at h
  split at h
  · cases h
  · split at h
    · cases h
    · split at h
      · rw [← Except.ok.inj h]
      · obtain ⟨alteration, halter, rfl⟩ := map_eq_ok.1 h
        rw [alter_database halter hs ht (congrArg ObjectId.kind hid)]
        rfl

namespace Snapshot

variable {snapshot : Snapshot} {id : ObjectId} {s : Statement}

/-- Only the root is a database. -/
theorem WellFormed.kind_ne_database (h : snapshot.WellFormed) (hs : snapshot.get? id = some s)
    (hid : id ≠ .database) : id.kind ≠ .database := by
  obtain ⟨p, hp⟩ := h.exists_parent? (contains_iff.2 ⟨s, hs⟩) hid
  have hunder := (h.owner_of_parent? hp).2.1
  intro hkind
  rw [hkind] at hunder
  cases p.kind <;> cases hunder

/-- The definition of the database is that of a database. -/
theorem Typed.definition_database (h : snapshot.Typed) (hs : snapshot.get? .database = some s) :
    s.definition = .database := by
  have hkind := h.kind_eq hs
  cases hdefinition : s.definition <;> rw [hdefinition] at hkind <;> first | rfl | cases hkind

end Snapshot

/-- If the database is only ever said to be on both sides, it has no entry in a plan. -/
theorem Plan.id_ne_database_of_ofElements {old new : Snapshot} {elements : List Element}
    {plan : Plan} (hold : old.Typed) (hnew : new.Typed)
    (helements : ∀ element ∈ elements, element.presence = .both ∨ element.id ≠ .database)
    (h : ofElements old new elements = .ok plan) :
    ∀ entry ∈ plan.entries, entry.id ≠ .database := by
  have hresult := foldlM_preserves (fun plan : Plan => plan.old = old ∧ plan.new = new ∧
    ∀ entry ∈ plan.entries, entry.id ≠ .database) h ⟨rfl, rfl, by simp⟩ ?_
  · exact hresult.2.2
  rintro ⟨element, order⟩ hin plan next ⟨rfl, rfl, hplan⟩ hselect
  have hmem : element ∈ elements := (List.mem_zipIdx' hin).2 ▸ List.getElem_mem _
  rcases select_spec hselect with
    ⟨-, rfl⟩ | ⟨-, before, after, decision, hstatements, hdecision, rfl⟩
  · exact ⟨rfl, rfl, hplan⟩
  split
  · exact ⟨rfl, rfl, hplan⟩
  · next htouched =>
    refine ⟨rfl, rfl, fun entry hentry => ?_⟩
    rcases List.mem_append.1 hentry with hentry | hentry
    · exact hplan entry hentry
    · rw [List.mem_singleton.1 hentry]
      intro (heq : element.id = .database)
      refine htouched ?_
      have hboth := (helements element hmem).resolve_right (not_not.2 heq)
      obtain ⟨⟨rfl, hthereOld⟩, rfl, hthereNew⟩ := Element.statements_of_both hboth hstatements
      rw [heq] at hdecision hthereOld hthereNew
      obtain ⟨s, hs⟩ := Snapshot.contains_iff.1 hthereOld
      obtain ⟨t, ht⟩ := Snapshot.contains_iff.1 hthereNew
      rw [hs, ht] at hdecision
      exact Dialect.decideOn_database (hold.definition_database hs) (hnew.definition_database ht)
        (Snapshot.get?_some ht).2 hdecision

/-- The statements that start and end a transaction, where the dialect has them. -/
def Dialect.transaction? : Dialect → Option (String × String)
  | .postgres => some ("START TRANSACTION", "COMMIT TRANSACTION")
  | .msSql => some ("BEGIN TRANSACTION", "COMMIT")
  | .clickHouse => none

/-- A transaction starts behind the settings, and its end is all that closes a script. -/
theorem ScriptOptions.transaction_spec {options : ScriptOptions} {dialect : Dialect}
    {start finish : String} (htransaction : options.transaction = true)
    (h : dialect.transaction? = some (start, finish)) :
    options.opening dialect =
        { options with transaction := false }.opening dialect ++ [start] ∧
      options.closing dialect = [finish] ∧
      ∀ phase, Script.statementFragment? phase start = some ⟨phase, start, false⟩ ∧
        Script.statementFragment? phase finish = some ⟨phase, finish, false⟩ := by
  cases dialect with
  | postgres =>
    obtain ⟨rfl, rfl⟩ := Prod.mk.inj (Option.some.inj h)
    exact ⟨by simp [opening, htransaction], by simp [closing, htransaction],
      fun phase => by cases phase <;> decide⟩
  | msSql =>
    obtain ⟨rfl, rfl⟩ := Prod.mk.inj (Option.some.inj h)
    exact ⟨by simp [opening, htransaction], by simp [closing, htransaction],
      fun phase => by cases phase <;> decide⟩
  | clickHouse => cases h

namespace Migration

section
variable {m : Migration} {old new : Snapshot} {elements : List Element} {extra : ExtraDependencies}
  {plan : Plan} {st : Staging} {planned : List Step}
  (h : m.Derives old new elements extra plan st planned) (hold : old.WellFormed)
  (hnew : new.WellFormed)
include h hold hnew

/-! ## Every entry leads to an action -/

omit h hold hnew in
/-- What goes with its table goes with something other than the database. -/
theorem GoesWithTable.exists_key {kind : StepKind} {id : ObjectId}
    (hside : (m.side kind).WellFormed) (hgoes : m.GoesWithTable kind id) :
    ∃ key ∈ m.keys, key.id ≠ .database := by
  obtain ⟨hkind, table, hp, hkey⟩ := hgoes
  refine ⟨_, hkey, ?_⟩
  rintro (rfl : table = .database)
  have hunder := (hside.owner_of_parent? hp).2.1
  rcases hkind with hkind | ⟨hkind, -⟩ <;> rw [hkind] at hunder <;> cases hunder

/-- What is touched, the database aside, has an action of its own or goes with a table that has
one. -/
theorem Derives.exists_key {entry : PlanEntry} (hentry : entry ∈ m.entries)
    (hid : entry.id ≠ .database) : ∃ key ∈ m.keys, key.id ≠ .database := by
  have htouched := (h.grounded _ entry (h.mem_entries.1 hentry)).touched
  obtain ⟨kind, hasks⟩ : ∃ kind, entry.treatment.asks kind = true := by
    cases htreatment : entry.treatment
    case nothing => exact absurd htreatment htouched
    case create => exact ⟨.create, rfl⟩
    case drop | recreate => exact ⟨.drop, rfl⟩
    case alter | alterWithDependents => exact ⟨.alter, rfl⟩
  have hcount := (h.realises hold hnew hentry).count kind hasks
  split at hcount
  · next hgoes =>
    exact hgoes.exists_key (h.runs.side_eq kind ▸ h.wellFormed_side hold hnew kind)
  · exact ⟨⟨kind, entry.id⟩, List.count_pos_iff.1 (by omega), hid⟩

/-- If anything is touched, something other than the database has an action. -/
theorem Derives.exists_key_of_entries (hselected : ∀ entry ∈ plan.entries, entry.id ≠ .database)
    (hentries : m.entries ≠ []) : ∃ key ∈ m.keys, key.id ≠ .database := by
  obtain ⟨entry, hentry⟩ := List.exists_mem_of_ne_nil _ hentries
  obtain ⟨first, hfirst, -⟩ := h.edited.exists_chain h.initial.old h.initial.new
    (Plan.contains_iff.2 ⟨entry, h.mem_entries.1 hentry⟩)
  obtain ⟨selected, hselectedEntry⟩ := Plan.contains_iff.1 hfirst
  obtain ⟨hmem, rfl⟩ := Plan.get?_some hselectedEntry
  obtain ⟨stays, hstays⟩ :=
    Plan.contains_iff.1 ((h.edited.advances h.initial.new).contains hfirst)
  have hid := (Plan.get?_some hstays).2
  exact h.exists_key hold hnew (h.mem_entries.2 (hid ▸ hstays)) (hid ▸ hselected _ hmem)

/-- If nothing is touched there are no actions. -/
theorem Derives.keys_eq_nil (hentries : m.entries = []) : m.keys = [] := by
  have hanswers : ∀ key, ¬ m.Answers key := by
    rintro key ⟨⟨entry, hentry, -⟩, -⟩
    rw [hentries] at hentry
    cases hentry
  have hfollows : ∀ key ∈ m.keys, m.FollowsTable key := fun key hkey =>
    (h.answers_or_followsTable hold hnew hkey).resolve_left (hanswers key)
  rw [List.eq_nil_iff_forall_not_mem]
  intro key hkey
  -- A constraint would follow its table, and the table another one.
  obtain ⟨-, hkind, -, table, hp, htable⟩ := hfollows key hkey
  have hunder := ((h.runs.side_eq key.kind ▸ h.wellFormed_side hold hnew key.kind :
    (m.side key.kind).WellFormed).owner_of_parent? hp).2.1
  rw [hkind, (hfollows _ htable).2.1] at hunder
  cases hunder

/-! ## Statements of actions -/

omit hold hnew in
/-- What alters an object in place consists of statements, at least one. -/
theorem Derives.opens_of_entry {entry : PlanEntry} (hentry : entry ∈ m.entries)
    (halters : entry.treatment.alters = true) :
    ∃ sql ∈ entry.statements, Ddl.Opens Ddl.verbs sql := by
  rcases h.edited.entry_cases h.initial.new h.initial.grounded (h.mem_entries.1 hentry) with
    hfound | ⟨hnot, -⟩ | ⟨-, -, -, sql, hrefresh, hstatements⟩
  · obtain ⟨s, t, alteration, -, -, -, halter, hdecision⟩ :=
      Plan.decided_of_ofElements h.selected _ entry hfound halters
    obtain ⟨changes, rfl⟩ := Dialect.exists_changes_of_alter halter
    have hne := (Decision.lists_iff_alters changes).2 (by rw [hdecision]; exact halters)
    obtain ⟨sql, hsql⟩ := List.exists_mem_of_ne_nil _ hne
    have hopens := Dialect.opens_of_alter halter hsql
    rw [hdecision] at hsql
    exact ⟨sql, hsql, hopens⟩
  · rw [hnot] at halters
    cases halters
  · obtain ⟨t, -, hrefreshes⟩ := Plan.inPlace?_eq_some.1 hrefresh
    exact ⟨sql, by rw [hstatements]; exact List.mem_singleton_self _,
      Dialect.opens_refresh? hrefreshes⟩

/-- Every action on anything but the database has a statement that begins with a verb. -/
theorem Derives.exists_opens_of_action (holdTyped : old.Typed) (hnewTyped : new.Typed)
    {action : Action} (haction : action ∈ m.actions) (hid : action.statement.id ≠ .database)
    {statements : List String} (hstatements : m.statementsOf action = .ok statements) :
    ∃ sql ∈ statements, Ddl.Opens Ddl.verbs sql := by
  obtain ⟨hkey, hs⟩ := h.runs.statement?_of_action haction
  rw [statementsOf] at hstatements
  cases hkind : action.kind <;> rw [hkind] at hstatements <;> dsimp only at hstatements <;>
    simp only [Staging.statement?, Action.key, Staging.side, hkind, h.planOld, h.planNew] at hs
  case create =>
    refine Dialect.exists_opens_of_create hstatements fun hdefinition => ?_
    have hdatabase := hnewTyped.kind_eq hs
    rw [hdefinition] at hdatabase
    exact hnew.kind_ne_database hs hid hdatabase.symm
  case drop =>
    exact Dialect.exists_opens_of_drop hstatements (holdTyped.kind_eq hs)
      (hold.kind_ne_database hs hid)
  case alter =>
    obtain ⟨entry, hentry, -, halters, hlists⟩ := h.exists_entry_of_alter hold hnew haction hkind
    obtain rfl := Except.ok.inj hstatements
    rw [hlists]
    exact h.opens_of_entry hentry halters
  case passThrough =>
    rcases h.answers_or_followsTable hold hnew hkey with ⟨⟨_, -, -, hasks⟩, -⟩ | hfollows
    · rw [Action.key, hkind] at hasks
      cases hasks
    · rcases hfollows.2.2.1 with heq | heq <;> simp [Action.key, hkind] at heq

end

/-! ## Scripts -/

/-- What an action leaves in the body of a script. -/
def contribution (m : Migration) (action : Action) : List Fragment :=
  ((m.statementsOf action).toOption.getD []).filterMap (Script.statementFragment? .body)

/-- What the statements and the texts of the user leave around the actions. -/
def enclosed (m : Migration) (options : ScriptOptions) : List Fragment :=
  options.pre.filterMap (Script.verbatimFragment? .opening) ++ m.actions.flatMap m.contribution ++
    options.post.filterMap (Script.verbatimFragment? .closing)

section
variable {m : Migration} {options : ScriptOptions} {script : Script}

/-- The statements of all actions leave what each of them leaves. -/
theorem filterMap_statements {body : List String} (h : m.statements = .ok body) :
    body.filterMap (Script.statementFragment? .body) = m.actions.flatMap m.contribution := by
  obtain ⟨statements, hstatements, hbody⟩ := bind_eq_ok.1 h
  obtain rfl := Except.ok.inj hbody
  rw [mapM_eq_ok] at hstatements
  clear h hbody
  generalize m.actions = actions at hstatements ⊢
  induction hstatements with
  | nil => rfl
  | cons haction _ ih =>
    rw [List.flatten_cons, List.filterMap_append, ih, List.flatMap_cons, contribution, haction]
    rfl

/-- Where all statements are there, every action has its own. -/
theorem exists_statementsOf_of_statements {body : List String} (h : m.statements = .ok body)
    {action : Action} (haction : action ∈ m.actions) :
    ∃ statements, m.statementsOf action = .ok statements := by
  obtain ⟨statements, hstatements, -⟩ := bind_eq_ok.1 h
  obtain ⟨found, -, hfound⟩ := (exists_of_forall₂ (mapM_eq_ok.1 hstatements)).1 action haction
  exact ⟨found, hfound⟩

/-- Where a script is written, every action has its statements. -/
theorem exists_statementsOf (h : m.script options = .ok script) {action : Action}
    (haction : action ∈ m.actions) : ∃ statements, m.statementsOf action = .ok statements := by
  simp only [Migration.script] at h
  split at h
  · next hempty =>
    rw [isEmpty, List.isEmpty_iff] at hempty
    rw [hempty] at haction
    cases haction
  · obtain ⟨body, hbody, -⟩ := bind_eq_ok.1 h
    exact exists_statementsOf_of_statements hbody haction

/-- Without actions a script is empty. -/
theorem fragments_script_of_isEmpty (h : m.script options = .ok script) (hempty : m.actions = []) :
    script.fragments = [] := by
  simp only [Migration.script, isEmpty, hempty, List.isEmpty_nil, if_true] at h
  rw [← Except.ok.inj h]

/-- A script with actions consists of what opens it, of what is enclosed, and of what closes it. -/
theorem sorted_script (h : m.script options = .ok script) (hactions : m.actions ≠ []) :
    script.sorted =
        (options.opening m.new.dialect).filterMap (Script.statementFragment? .opening) ++
      m.enclosed options ++
      (options.closing m.new.dialect).filterMap (Script.statementFragment? .closing) := by
  simp only [Migration.script, isEmpty, List.isEmpty_iff, hactions, if_false, bind_eq_ok] at h
  obtain ⟨body, hbody, h⟩ := h
  have hfragments : script.fragments =
      ((options.opening m.new.dialect).filterMap (Script.statementFragment? .opening) ++
        options.pre.filterMap (Script.verbatimFragment? .opening)) ++
      m.actions.flatMap m.contribution ++
      (options.post.filterMap (Script.verbatimFragment? .closing) ++
        (options.closing m.new.dialect).filterMap (Script.statementFragment? .closing)) := by
    rw [← Except.ok.inj h]
    simp only [Script.pushAll_eq, Script.pushAllVerbatim_eq, filterMap_statements hbody,
      List.nil_append, List.append_assoc]
  -- The fragments come phase by phase, so sorting leaves them where they are.
  rw [Script.sorted_eq_self hfragments
    (fun _ hin => (List.mem_append.1 hin).elim Script.phase_of_mem_statements
      Script.phase_of_mem_texts)
    (fun _ hin => Script.phase_of_mem_statements (filterMap_statements hbody ▸ hin))
    (fun _ hin => (List.mem_append.1 hin).elim Script.phase_of_mem_texts
      Script.phase_of_mem_statements), hfragments]
  simp only [enclosed, List.append_assoc]

end

/-- What an action leaves is enclosed. -/
theorem mem_enclosed {m : Migration} {options : ScriptOptions} {action : Action}
    {fragment : Fragment} (haction : action ∈ m.actions) (h : fragment ∈ m.contribution action) :
    fragment ∈ m.enclosed options :=
  List.mem_append_left _ (List.mem_append_right _ (List.mem_flatMap.2 ⟨action, haction, h⟩))

section
variable {m : Migration} {old new : Snapshot} {elements : List Element} {extra : ExtraDependencies}
  {plan : Plan} {st : Staging} {planned : List Step} {options : ScriptOptions} {script : Script}
  (h : m.Derives old new elements extra plan st planned) (hold : old.WellFormed)
  (hnew : new.WellFormed)
include h hold hnew

/-- An action on anything but the database leaves a fragment that is not blank. -/
theorem Derives.exists_contribution (holdTyped : old.Typed) (hnewTyped : new.Typed)
    (hscript : m.script options = .ok script) {action : Action} (haction : action ∈ m.actions)
    (hid : action.statement.id ≠ .database) :
    ∃ fragment ∈ m.contribution action, (Text.trim fragment.sql).isEmpty = false := by
  obtain ⟨statements, hstatements⟩ := exists_statementsOf hscript haction
  obtain ⟨sql, hsql, hopens⟩ :=
    h.exists_opens_of_action hold hnew holdTyped hnewTyped haction hid hstatements
  obtain ⟨fragment, hfragment, htext⟩ := Script.exists_statementFragment? hopens .body
  refine ⟨fragment, ?_, htext⟩
  rw [contribution, hstatements]
  exact List.mem_filterMap.2 ⟨sql, hsql, hfragment⟩

/-- A script is rendered as nothing exactly if nothing is touched. -/
theorem Derives.render_eq_empty_iff (holdTyped : old.Typed) (hnewTyped : new.Typed)
    (hselected : ∀ entry ∈ plan.entries, entry.id ≠ .database)
    (hscript : m.script options = .ok script) : script.render = "" ↔ m.entries = [] := by
  rw [Script.render_eq_empty_iff]
  constructor
  · intro hfragments
    by_contra hne
    obtain ⟨key, hkey, hid⟩ := h.exists_key_of_entries hold hnew hselected hne
    obtain ⟨action, haction, rfl⟩ := List.mem_map.1 hkey
    obtain ⟨fragment, hfragment, -⟩ :=
      h.exists_contribution hold hnew holdTyped hnewTyped hscript haction hid
    have hsorted := sorted_script hscript (List.ne_nil_of_mem haction)
    rw [Script.sorted, hfragments, List.mergeSort_nil] at hsorted
    have hin : fragment ∈ m.enclosed options := mem_enclosed haction hfragment
    simp [List.append_eq_nil_iff.1 (List.append_eq_nil_iff.1 hsorted.symm).1] at hin
  · intro hnil
    exact fragments_script_of_isEmpty hscript (List.map_eq_nil_iff.1 (h.keys_eq_nil hold hnew hnil))

end

/-- **Scripts wrap actions.** A script is rendered as nothing exactly if nothing is touched. Else
there are actions, each of them, save those on the database, leaves a statement that is not blank in
the body, and a transaction starts behind the settings, in front of all texts of the user and all
actions, and ends behind them. -/
theorem script_wraps_actions {old new : Snapshot} {filter : SelectionFilter}
    {extra : ExtraDependencies} {options : ScriptOptions} {m : Migration} {script : Script}
    (hold : old.WellFormed) (hnew : new.WellFormed) (holdTyped : old.Typed) (hnewTyped : new.Typed)
    (hm : ofSnapshots old new filter extra = .ok m) (hscript : m.script options = .ok script) :
    (script.render = "" ↔ m.entries = []) ∧
      (m.entries ≠ [] → m.actions ≠ [] ∧
        (∀ action ∈ m.actions, action.statement.id ≠ .database →
          ∃ fragment ∈ m.contribution action, fragment ∈ script.sorted ∧ fragment.phase = .body ∧
            (Text.trim fragment.sql).isEmpty = false) ∧
        ∀ start finish, options.transaction = true →
          m.new.dialect.transaction? = some (start, finish) →
            script.sorted =
              (({ options with transaction := false }.opening m.new.dialect).filterMap
                (Script.statementFragment? .opening) ++ [⟨.opening, start, false⟩]) ++
              m.enclosed options ++ [⟨.closing, finish, false⟩]) := by
  obtain ⟨tree, htree, helements⟩ := bind_eq_ok.1 hm
  obtain ⟨left, right, tree?, hleft, hright, hcompare, hselected⟩ :=
    Difference.exists_compare_of_ofSnapshots hold hnew htree
  obtain ⟨plan, st, planned, h⟩ := exists_derives hold hnew helements
  have hdatabase := Plan.id_ne_database_of_ofElements holdTyped hnewTyped
    (fun element hmem => Difference.both_or_ne_database_of_mem_elements hold hnew hcompare hselected
      hmem) h.selected
  refine ⟨h.render_eq_empty_iff hold hnew holdTyped hnewTyped hdatabase hscript, fun hne => ?_⟩
  obtain ⟨key, hkey, -⟩ := h.exists_key_of_entries hold hnew hdatabase hne
  have hactions : m.actions ≠ [] := fun hnil => by simp [keys, hnil] at hkey
  have hsorted := sorted_script hscript hactions
  refine ⟨hactions, fun action haction hid => ?_, fun start finish htransaction hstarts => ?_⟩
  · obtain ⟨fragment, hfragment, htext⟩ :=
      h.exists_contribution hold hnew holdTyped hnewTyped hscript haction hid
    refine ⟨fragment, hfragment, ?_, Script.phase_of_mem_statements hfragment, htext⟩
    rw [hsorted]
    exact List.mem_append_left _ (List.mem_append_right _ (mem_enclosed haction hfragment))
  · obtain ⟨hopening, hclosing, hfragments⟩ := ScriptOptions.transaction_spec htransaction hstarts
    rw [hsorted, hopening, hclosing, List.filterMap_append]
    simp [hfragments]

/-! ### A table that goes with its column -/

namespace DroppedTable

/-- The table. -/
def table : ObjectId := .table "a" "t"

/-- The schema with some tables, each with a column. All fingerprints are made of one digest. -/
def snapshot (tables : List ObjectId) (digest : Digest) : Snapshot where
  dialect := .postgres
  statements :=
    [{ id := .database, parent := none, definition := .database, children := [⟨.schema, ["a"]⟩] },
     { id := ⟨.schema, ["a"]⟩, parent := some .database, definition := .schema {},
       children := tables }] ++
    tables.flatMap fun id =>
      [{ id, parent := some ⟨.schema, ["a"]⟩, definition := .table {},
         children := [id.child .column "x"] },
       { id := id.child .column "x", parent := some id,
         definition := .column { dataType := "int" } }]
  fingerprints := [.database, ⟨.schema, ["a"]⟩].map fun id => (id, ⟨digest, digest, digest⟩)

/-- The schema with the table. -/
def before : Snapshot := snapshot [table] ⟨[0]⟩

/-- The schema without the table. -/
def after : Snapshot := snapshot [] ⟨[1]⟩

/-- The texts of the user. -/
def options : ScriptOptions := { pre := ["SELECT 1;\n"], post := [" ", "SELECT 2;"] }

/-- The drop of the table is wrapped together with the texts of the user that are not blank. -/
theorem drop_wrapped : ∃ m script, ofSnapshots before after {} {} = .ok m ∧
    m.script options = .ok script ∧ m.keys = [⟨.drop, table⟩] ∧ script.render ≠ "" ∧
    script.sorted.map (·.sql) = ["SET search_path = pg_catalog", "START TRANSACTION", "SELECT 1;",
      "DROP TABLE a.t", "SELECT 2;", "COMMIT TRANSACTION"] := by
  obtain ⟨m, hm, htest⟩ := exists_ok_of_test (p := fun m : Migration =>
      (m.script options).toOption.any fun script => decide (m.entries ≠ [] ∧
        m.keys = [⟨.drop, table⟩] ∧ m.new.dialect = .postgres ∧
        (m.enclosed options).map (·.sql) = ["SELECT 1;", "DROP TABLE a.t", "SELECT 2;"]))
    (show (ofSnapshots before after {} {}).toOption.any _ = true by decide +kernel)
  obtain ⟨script, hscript, htest⟩ := exists_ok_of_test htest
  obtain ⟨hentries, hkeys, hdialect, henclosed⟩ := of_decide_eq_true htest
  obtain ⟨hempty, hwraps⟩ := script_wraps_actions (show before.WellFormed by decide +kernel)
    (show after.WellFormed by decide +kernel) (by decide +kernel) (by decide +kernel) hm hscript
  obtain ⟨-, -, htransaction⟩ := hwraps hentries
  refine ⟨m, script, hm, hscript, hkeys, mt hempty.1 hentries, ?_⟩
  rw [htransaction "START TRANSACTION" "COMMIT TRANSACTION" rfl (by rw [hdialect]; rfl), hdialect,
    List.map_append, List.map_append, henclosed]
  decide

end DroppedTable

end Migration

end SchemaMigration
