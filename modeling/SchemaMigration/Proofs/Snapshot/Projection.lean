import SchemaMigration.Proofs.Snapshot.Dependencies
import SchemaMigration.Proofs.Sql.Scope

/-!
# Tables that are selected as a whole

The results of a `SELECT` may be all columns of its tables. Its list of tables names some of them
directly (`Select.Lists`) and others in parentheses or under a pivot (`Select.Names`), but an `*`
stands just for those named directly. `Builder.star_reaches_listed_tables` says which columns of a
table a view or routine depends on after analysis: all of a table that an `*` stands for, and of any
other table only those that the text names.
-/

namespace SchemaMigration

namespace Sql

/-! ## The tables of a `SELECT` -/

/-- A source names a table, itself or in parentheses or under a pivot. -/
inductive Source.Names : Source → List String → Prop
  | table (path : List String) (alias? : Option String) (operands : List Expr) :
      (Source.table path alias? operands).Names path
  | nested {tables : Joined} {source : Source} {path : List String}
      (listed : source ∈ tables.sources) (names : source.Names path) :
      (Source.nested tables).Names path
  | pivoted {source : Source} {operands : List Expr} {path : List String}
      (names : source.Names path) : (Source.pivoted source operands).Names path

namespace Select

variable {s : Select} {path : List String}

/-- The sources in the list of tables of a `SELECT`. -/
def sources : Select → List Source
  | .mk _ _ tables _ => tables.flatMap Joined.sources

/-- The results of a `SELECT`. -/
def items : Select → List Item
  | .mk _ items _ _ => items

/-- A `SELECT` has `*` without a qualifier among its results. -/
def All (s : Select) : Prop := ∃ replacements, .all replacements ∈ s.items

/-- A table is named anywhere in the list of tables of a `SELECT`. -/
def Names (s : Select) (path : List String) : Prop := ∃ source ∈ s.sources, source.Names path

/-- A table is itself in the list of tables of a `SELECT`. -/
def Lists (s : Select) (path : List String) : Prop :=
  ∃ alias? operands, .table path alias? operands ∈ s.sources

/-- A `SELECT` has `*` behind a qualifier that stands for a table. -/
def Qualifies (s : Select) (path : List String) : Prop :=
  ∃ qualifier replacements, .allOf qualifier replacements ∈ s.items ∧
    path ∈ (Item.allOf qualifier replacements).wildcards (s.sources.filterMap Source.selectable?)

/-- The tables that can stand before `*` are those that are listed. -/
theorem mem_selectable_iff :
    path ∈ (s.sources.filterMap Source.selectable?).map Prod.snd ↔ s.Lists path := by
  simp only [List.mem_map, List.mem_filterMap]
  constructor
  · rintro ⟨pair, ⟨source, hsource, hpair⟩, rfl⟩
    cases source with
    | table name alias? operands =>
      obtain rfl := Option.some.inj hpair
      exact ⟨alias?, operands, hsource⟩
    | _ => cases hpair
  · rintro ⟨alias?, operands, hsource⟩
    exact ⟨_, ⟨_, hsource, rfl⟩, rfl⟩

/-- The results of a `SELECT` stand for the tables it lists, if there is an `*` without a qualifier,
and for those that the others are qualified with. -/
theorem mem_wildcards_iff : path ∈ s.wildcards ↔ s.All ∧ s.Lists path ∨ s.Qualifies path := by
  have hwildcards : s.wildcards =
      s.items.flatMap (Item.wildcards (s.sources.filterMap Source.selectable?)) := by
    cases s
    rfl
  rw [hwildcards, List.mem_flatMap, ← mem_selectable_iff]
  constructor
  · rintro ⟨item, hitem, hpath⟩
    cases item with
    | value => cases hpath
    | all replacements => exact .inl ⟨⟨_, hitem⟩, hpath⟩
    | allOf qualifier replacements => exact .inr ⟨_, _, hitem, hpath⟩
  · rintro (⟨⟨_, hitem⟩, hpath⟩ | ⟨_, _, hitem, hpath⟩)
    · exact ⟨_, hitem, hpath⟩
    · exact ⟨_, hitem, hpath⟩

end Select

end Sql

namespace Snapshot

/-- A column is one of a single table. -/
theorem WellFormed.table_unique {snapshot : Snapshot} (h : snapshot.WellFormed)
    {a b : ObjectId} {s t : Statement} (hs : s ∈ snapshot.columns a) (ht : t ∈ snapshot.columns b)
    (hid : s.id = t.id) : a = b := by
  obtain ⟨hmem, hparent, -⟩ := h.mem_columns_iff.1 hs
  obtain ⟨hmem', hparent', -⟩ := h.mem_columns_iff.1 ht
  obtain rfl := List.inj_on_of_nodup_map h.distinct hmem hmem' hid
  exact Option.some.inj (hparent.symm.trans hparent')

end Snapshot

namespace Builder

variable {b next : Builder} {id table : ObjectId} {task : Task} {s column : Statement}

/-! ## Waiting statements -/

/-- Nothing is known of the dependencies of statements whose tasks wait. -/
def Unasked (b : Builder) : Prop :=
  ∀ task ∈ b.tasks, ∀ s ∈ b.statements, s.id = task.id → s.dependencies = []

/-- Changing other things about a statement leaves the waiting ones alone. -/
theorem Unasked.modify {change : Statement → Statement} (hb : b.Unasked)
    (h : b.modify id change = .ok next)
    (hchange : ∀ s : Statement, (change s).id = s.id ∧ (change s).dependencies = s.dependencies) :
    next.Unasked := by
  obtain ⟨-, rfl⟩ := modify_eq_ok.1 h
  intro task htask t ht hid
  obtain ⟨s, hs, rfl⟩ := List.mem_map.1 ht
  split at hid
  · next heq =>
    rw [(hchange s).1] at hid
    rw [if_pos heq, (hchange s).2]
    exact hb task htask s hs hid
  · next heq =>
    rw [if_neg heq]
    exact hb task htask s hs hid

/-- Adding a statement, which depends on nothing yet, leaves the waiting ones alone. -/
theorem Unasked.add {parent : ObjectId} {name : String} {definition : Definition}
    (hb : b.Unasked) (h : b.add parent name definition = .ok (id, next)) : next.Unasked := by
  obtain ⟨-, -, -, hfresh, rfl⟩ := add_eq_ok.1 h
  intro task htask t ht hid
  rcases List.mem_append.1 ht with ht | ht
  · obtain ⟨s, hs, rfl⟩ := List.mem_map.1 ht
    have hkept : (if s.id = parent then { s with children := s.children ++ [id] }
        else s).dependencies = s.dependencies := by split <;> rfl
    have hsid : s.id = task.id := by
      rw [← hid]
      split <;> rfl
    rw [hkept]
    rcases List.mem_append.1 htask with htask | htask
    · exact hb task htask s hs hsid
    · -- The new task is of the new statement, whose identity was not there.
      obtain ⟨_, -, rfl⟩ := List.mem_map.1 htask
      rw [Snapshot.contains_iff_exists_mem.2 ⟨s, hs, hsid⟩] at hfresh
      cases hfresh
  · rw [List.mem_singleton.1 ht]

/-- Nothing is ever known of the dependencies of statements whose tasks wait. -/
theorem Reachable.unasked (h : b.Reachable) : b.Unasked := by
  induction h with
  | new dialect => exact fun _ h => absurd h List.not_mem_nil
  | add _ added ih => exact ih.add added
  | setOwner _ set ih | setComment _ set ih => exact ih.modify set fun _ => ⟨rfl, rfl⟩
  | depend _ stated ih =>
    refine ih.modify stated fun s => ?_
    unfold Statement.state
    split <;> exact ⟨rfl, rfl⟩
  | settle => exact fun _ h => absurd h List.not_mem_nil

/-- After draining, a statement whose task waited depends on what its text refers to. -/
theorem Reachable.exists_drained (h : b.Reachable) (htask : task ∈ b.tasks) :
    ∃ s ∈ b.drain.statements, s.id = task.id ∧ ∀ id, id ∈ s.dependencies ↔
      id ∈ Dependency.ofReferences b.statements task.id (.ofText b.read b.dialect task.sql) := by
  obtain ⟨s, hs, hid, -⟩ := h.queued.asked task htask
  refine ⟨b.analysed s, ?_, (b.stays_analysed s).id.trans hid, fun id => ?_⟩
  · rw [statements_drain h.queued.distinct]
    exact List.mem_map_of_mem hs
  · have hfree := h.unasked task htask s hs hid
    rw [mem_analysed_iff_of_task h.queued.distinct htask hid.symm hfree, hid]

/-! ## Columns -/

open Dependency

/-- Views and routines are no columns. -/
theorem Reachable.ne_column_of_task (h : b.Reachable) (htask : task ∈ b.tasks)
    (hcolumn : column ∈ Statements.columns b.statements table) : column.id ≠ task.id := by
  intro heq
  obtain ⟨s, hs, hid, hasks⟩ := h.queued.asked task htask
  have hkind : task.id.kind = .column := by
    rw [← heq]
    exact of_decide_eq_true (List.mem_filter.1 hcolumn).2
  have htyped := h.typed s hs
  rw [Statement.kind, hid, hkind] at htyped
  obtain ⟨_, hview, -⟩ | ⟨_, hroutine | hroutine, -⟩ := hasks
  · rw [hview] at htyped
    cases htyped
  all_goals
    rw [hroutine] at htyped
    cases htyped

/-- What references mean for a column: a table that is selected as a whole has it, or the table is
referred to and a column of the name as well. -/
theorem Reachable.column_mem_ofReferences_iff (h : b.Reachable) {owner : ObjectId}
    {references : Sql.References} (hcolumn : column ∈ Statements.columns b.statements table)
    (hne : column.id ≠ owner) : column.id ∈ ofReferences b.statements owner references ↔
      (∃ path ∈ references.wildcards, relation? b.statements owner path = some table) ∨
        (∃ path ∈ references.relations, relation? b.statements owner path = some table) ∧
          ∃ name ∈ references.columns, Text.sameIgnoringCase column.name name = true := by
  have hkind : column.id.kind = .column := of_decide_eq_true (List.mem_filter.1 hcolumn).2
  have hresolve {kinds : List ObjectKind} {path : List String} (hkinds : .column ∉ kinds)
      (hfound : NameLookup.resolve? (Statements.ids b.statements) kinds owner.schemaName? path =
        some column.id) : False :=
    hkinds (hkind ▸ NameLookup.kind_mem_of_resolve? hfound)
  rw [mem_ofReferences_iff]
  constructor
  · rintro ⟨-, ⟨_, -, hfound⟩ | ⟨other, hother, t, ht, hid⟩ |
      ⟨name, hname, other, hother, t, ht, hsame, hid⟩ | ⟨_, -, hfound⟩⟩
    · exact (hresolve (by decide) hfound).elim
    · obtain rfl := h.wellFormed.table_unique ht hcolumn hid
      exact .inl hother
    · obtain rfl := h.wellFormed.table_unique ht hcolumn hid
      refine .inr ⟨hother, name, hname, ?_⟩
      rwa [Statement.name, hid] at hsame
    · exact (hresolve (by decide) hfound).elim
  · rintro (hwhole | ⟨hread, name, hname, hsame⟩)
    · exact ⟨hne, .inr (.inl ⟨table, hwhole, column, hcolumn, rfl⟩)⟩
    · exact ⟨hne, .inr (.inr (.inl ⟨name, hname, table, hread, column, hcolumn, hsame, rfl⟩))⟩

/-- In some statements an `*` stands for a table, by the names that `owner` may use. -/
def Starred (b : Builder) (owner : ObjectId) (statements : List Sql.Statement) (table : ObjectId) :
    Prop :=
  ∃ p select path, (Sql.Node.text statements).Has p ∧ p.node = .select select ∧
    (select.All ∧ select.Lists path ∨ select.Qualifies path) ∧
    relation? b.statements owner path = some table

/-- The tables that the references of a text have as a whole are those that an `*` stands for. -/
theorem exists_mem_wildcards_iff {read : Sql.Reader} {dialect : Dialect} {text : String}
    {statements : List Sql.Statement} {owner : ObjectId}
    (htext : read dialect text = some statements) :
    (∃ path ∈ (Sql.References.ofText read dialect text).wildcards,
      relation? b.statements owner path = some table) ↔ b.Starred owner statements table := by
  simp only [Sql.References.mem_wildcards_iff htext, Starred]
  constructor
  · rintro ⟨path, ⟨p, hp, hpath⟩, htable⟩
    cases hnode : p.node with
    | select select =>
      rw [hnode] at hpath
      exact ⟨p, select, path, hp, hnode, Sql.Select.mem_wildcards_iff.1 hpath, htable⟩
    | _ =>
      rw [hnode] at hpath
      cases hpath
  · rintro ⟨p, select, path, hp, hnode, hpath, htable⟩
    refine ⟨path, ⟨p, hp, ?_⟩, htable⟩
    rw [hnode]
    exact Sql.Select.mem_wildcards_iff.2 hpath

/-- **An `*` reaches the tables that are listed.** Let a text that the reader reads wait for
analysis after some calls. After draining, its owner depends on a column of a table if and only if
an `*` of the text stands for the table, or the text refers to the table and to a column of that
name. The `*` of a `SELECT`, anywhere in the text, stands for the tables that are themselves in its
list, so the owner depends on all columns of these; of those in parentheses or under a pivot it need
not. -/
theorem star_reaches_listed_tables (read : Sql.Reader) (dialect : Dialect) (calls : List Call) :
    let b := (new dialect read).run calls
    ∀ task ∈ b.tasks, ∀ statements, read dialect task.sql = some statements →
      let references := Sql.References.ofText read dialect task.sql
      ∃ s ∈ b.drain.statements, s.id = task.id ∧
        (∀ table, ∀ column ∈ Statements.columns b.statements table, column.id ∈ s.dependencies ↔
          b.Starred task.id statements table ∨
            (∃ path ∈ references.relations, relation? b.statements task.id path = some table) ∧
              ∃ name ∈ references.columns, Text.sameIgnoringCase column.name name = true) ∧
        ∀ p select path table, (Sql.Node.text statements).Has p → p.node = .select select →
          select.All → select.Lists path → relation? b.statements task.id path = some table →
            ∀ column ∈ Statements.columns b.statements table, column.id ∈ s.dependencies := by
  intro b task htask statements htext references
  have hreachable : b.Reachable := (Reachable.new dialect read).run calls
  obtain ⟨hdialect, hread⟩ := dialect_and_read_run dialect read calls
  obtain ⟨s, hs, hid, hdependencies⟩ := hreachable.exists_drained htask
  rw [hdialect, hread] at hdependencies
  have hcolumns : ∀ table, ∀ column ∈ Statements.columns b.statements table,
      column.id ∈ s.dependencies ↔ b.Starred task.id statements table ∨
        (∃ path ∈ references.relations, relation? b.statements task.id path = some table) ∧
          ∃ name ∈ references.columns, Text.sameIgnoringCase column.name name = true := by
    intro table column hcolumn
    rw [hdependencies, hreachable.column_mem_ofReferences_iff hcolumn
      (hreachable.ne_column_of_task htask hcolumn), exists_mem_wildcards_iff htext]
  refine ⟨s, hs, hid, hcolumns, fun p select path table hp hnode hall hlists htable => ?_⟩
  intro column hcolumn
  exact (hcolumns table column hcolumn).2 (.inl ⟨p, select, path, hp, hnode, .inl ⟨hall, hlists⟩,
    htable⟩)

end Builder

namespace Builder.JoinInParentheses

open Dependency

/-- A query of one table and of two others joined in parentheses. -/
def text : String := "SELECT * FROM t, (u CROSS JOIN w)"

/-- The `SELECT` of the query. -/
def select : Sql.Select :=
  .mk [] [.all []] [.mk (.named ["t"]) [],
    .mk (.nested (.mk (.named ["u"]) [.mk (.named ["w"]) []])) []] []

/-- The statements of the text. -/
def statements : List Sql.Statement := [.query (.mk [] (.select select) [])]

/-- The tokens of the text. -/
def tokens : List Sql.Token :=
  [.word "SELECT" "SELECT" none, .symbol "*", .word "FROM" "FROM" none, .word "t" "T" none,
    .symbol ",", .symbol "(", .word "u" "U" none, .word "CROSS" "CROSS" none,
    .word "JOIN" "JOIN" none, .word "w" "W" none, .symbol ")"]

theorem read_text : Sql.read .postgres text = some statements := by
  have htokens : Sql.tokenize .postgres text = some tokens := by decide +kernel
  rw [Sql.read, htokens, Option.bind_some]
  rfl

/-- The schema. -/
def schema : ObjectId := ⟨.schema, ["a"]⟩

/-- The view of the query. -/
def view : ObjectId := ⟨.view, ["a", "v"]⟩

/-- Two of the tables, with a column each, and the view. -/
def calls : List Call :=
  [.add .database "a" (.schema {}), .add schema "t" (.table {}), .add schema "u" (.table {}),
    .add (.table "a" "t") "x" (.column { dataType := "int" }),
    .add (.table "a" "u") "y" (.column { dataType := "int" }),
    .add schema "v" (.view { query := text })]

/-- The builder. -/
def builder : Builder := (new .postgres Sql.read).run calls

/-- The `SELECT` stands in the text and has an `*`. -/
theorem has_select :
    ∃ p, (Sql.Node.text statements).Has p ∧ p.node = .select select ∧ select.All := by
  have hp := @Sql.Node.Has.inside (.text statements) _ [] [] _ rfl <|
    @Sql.Node.Has.inside _ _ [] [] _ rfl <| @Sql.Node.Has.inside _ _ [] [] _ rfl <|
    @Sql.Node.Has.inside _ _ [] [] _ rfl <| .here (.select select)
  exact ⟨_, hp, rfl, [], by simp [select, Sql.Select.items]⟩

/-- A column of a table. -/
def column (table : ObjectId) (name : String) : Statement where
  id := table.child .column name
  parent := some table
  definition := .column { dataType := "int" }

/-- The view depends on the column of the table that is listed. -/
theorem listed_table_reached :
    ⟨view, text⟩ ∈ builder.tasks ∧ select.Lists ["t"] ∧
      ∃ s ∈ builder.drain.statements, s.id = view ∧
        (column (.table "a" "t") "x").id ∈ s.dependencies := by
  have htask : ⟨view, text⟩ ∈ builder.tasks := by decide +kernel
  have hlists : select.Lists ["t"] :=
    ⟨none, [], by simp [select, Sql.Select.sources, Sql.Joined.sources, Sql.Source.named]⟩
  obtain ⟨p, hp, hnode, hall⟩ := has_select
  obtain ⟨s, hs, hid, -, hlisted⟩ :=
    star_reaches_listed_tables Sql.read .postgres calls ⟨view, text⟩ htask statements read_text
  exact ⟨htask, hlists, s, hs, hid, hlisted p select ["t"] (.table "a" "t") hp hnode hall hlists
    (by decide +kernel) (column (.table "a" "t") "x") (by decide +kernel)⟩

/-- The view depends on the table that the `SELECT` names in parentheses, but not on its column. -/
theorem joined_table_overlooked :
    (∃ p, (Sql.Node.text statements).Has p ∧ p.node = .select select ∧ select.All) ∧
      select.Names ["u"] ∧ ["u"] ∈ (Sql.References.ofText Sql.read .postgres text).relations ∧
      relation? builder.statements view ["u"] = some (.table "a" "u") ∧
      column (.table "a" "u") "y" ∈ Statements.columns builder.statements (.table "a" "u") ∧
      ∀ s ∈ builder.drain.statements, s.id = view → .table "a" "u" ∈ s.dependencies ∧
        (column (.table "a" "u") "y").id ∉ s.dependencies := by
  refine ⟨has_select, ?_, by decide +kernel, by decide +kernel, by decide +kernel,
    by decide +kernel⟩
  refine ⟨.nested (.mk (.named ["u"]) [.mk (.named ["w"]) []]), ?_, ?_⟩
  · simp [select, Sql.Select.sources, Sql.Joined.sources]
  · exact .nested (by simp [Sql.Joined.sources, Sql.Source.named]) (.table ["u"] none [])

end Builder.JoinInParentheses

end SchemaMigration
