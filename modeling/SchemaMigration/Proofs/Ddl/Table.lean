import SchemaMigration.Ddl.Generator
import SchemaMigration.Proofs.Snapshot.Tree
import SchemaMigration.Proofs.Success

/-!
# The definition of a table

In every dialect the statement that creates a table has a line for each of the children that stand
in the definition (`Snapshot.inline`): its columns, and its constraints unless they are detached.
Nothing else of the children goes into it (`Dialect.create_table`).
-/

namespace SchemaMigration

/-- Whether a child of a table stands in the definition of the table. -/
def Statement.isInline (detached : List ObjectId) (s : Statement) : Bool :=
  match s.definition with
  | .column _ => true
  | .constraint _ => !detached.contains s.id
  | _ => false

/-- The children of a table that stand in its definition, in order. -/
def Snapshot.inline (snapshot : Snapshot) (detached : List ObjectId) (table : ObjectId) :
    List Statement :=
  (snapshot.children table).filter (·.isInline detached)

/-- A constraint stands once in the definition of its table unless it is detached, and in that of
no other one. -/
theorem Snapshot.WellFormed.countP_inline {snapshot : Snapshot} (h : snapshot.WellFormed)
    {s : Statement} (hs : snapshot.get? s.id = some s)
    (hkind : s.definition.kind = .constraint) (detached : List ObjectId) (table : ObjectId) :
    (snapshot.inline detached table).countP (·.id = s.id) =
      if snapshot.parent? s.id = some table ∧ s.id ∉ detached then 1 else 0 := by
  have hinline : s.isInline detached = !detached.contains s.id := by
    unfold Statement.isInline
    cases hdefinition : s.definition <;> rw [hdefinition] at hkind <;> first | rfl | cases hkind
  have hnodup : ((snapshot.inline detached table).map (·.id)).Nodup :=
    (h.nodup_children table).sublist (List.filter_sublist.map _)
  have hmem : s.id ∈ (snapshot.inline detached table).map (·.id) ↔
      snapshot.parent? s.id = some table ∧ s.id ∉ detached := by
    have hsame : ∀ t ∈ snapshot.children table, t.id = s.id → t = s := by
      intro t hchild hid
      rw [← hid, (h.mem_children.1 hchild).1] at hs
      exact Option.some.inj hs
    rw [← h.exists_mem_children, List.mem_map]
    constructor
    · rintro ⟨t, ht, hid⟩
      obtain ⟨hchild, hin⟩ := List.mem_filter.1 ht
      obtain rfl := hsame t hchild hid
      exact ⟨⟨t, hchild, rfl⟩, by simpa [hinline] using hin⟩
    · rintro ⟨⟨t, hchild, hid⟩, hnot⟩
      obtain rfl := hsame t hchild hid
      exact ⟨t, List.mem_filter.2 ⟨hchild, by simpa [hinline] using hnot⟩, rfl⟩
  have hcount : (snapshot.inline detached table).countP (·.id = s.id) =
      ((snapshot.inline detached table).map (·.id)).count s.id := by
    rw [List.count, List.countP_map]
    exact List.countP_congr fun _ _ => by simp
  rw [hcount, hnodup.count]
  exact if_congr hmem rfl rfl

namespace Dialect

/-- The line of a child in the definition of its table, if it has one. -/
def tableLine? (dialect : Dialect) (detached : List ObjectId) (child : Statement) :
    Except MigrationError (Option String) :=
  match dialect with
  | postgres => .ok (Ddl.Postgres.tableLine? detached child)
  | msSql => .ok (Ddl.MsSql.tableLine? detached child)
  | clickHouse => Ddl.ClickHouse.tableLine? detached child

/-- The definition of a table with the given lines. -/
def tableText (dialect : Dialect) (s : Statement) (table : TableDefinition) (lines : List String) :
    String :=
  match dialect with
  | postgres => Ddl.Postgres.tableText s table lines
  | msSql => Ddl.MsSql.tableText s table lines
  | clickHouse => Ddl.ClickHouse.tableText s table lines

variable {dialect : Dialect} {detached : List ObjectId}

/-- In each dialect the children that stand in the definition of their table are those that have a
line there. -/
theorem isSome_tableLine? {child : Statement} {line : Option String}
    (h : dialect.tableLine? detached child = .ok line) :
    line.isSome = child.isInline detached := by
  unfold Statement.isInline
  cases dialect <;> simp only [tableLine?, Ddl.Postgres.tableLine?, Ddl.MsSql.tableLine?,
    Ddl.ClickHouse.tableLine?] at h
  case postgres | msSql =>
    obtain rfl := Except.ok.inj h
    cases child.definition <;> first | rfl | cases hin : detached.contains child.id <;> rfl
  case clickHouse =>
    cases hdefinition : child.definition <;> rw [hdefinition] at h <;> dsimp only at h ⊢ <;>
      try (obtain rfl := Except.ok.inj h; rfl)
    split at h
    · next hin =>
      obtain rfl := Except.ok.inj h
      rw [hin]
      rfl
    · next hin =>
      obtain ⟨clause, -, rfl⟩ := map_eq_ok.1 h
      simpa using hin

/-- The lines of children are those of the children that stand in the definition of their table. -/
theorem forall₂_inline {children : List Statement} {lines : List String}
    (h : children.filterMapM (dialect.tableLine? detached) = .ok lines) :
    List.Forall₂ (fun child line => dialect.tableLine? detached child = .ok (some line))
      (children.filter (·.isInline detached)) lines := by
  obtain ⟨found, hfound, rfl⟩ := filterMapM_eq_ok.1 h
  clear h
  induction hfound with
  | nil => exact .nil
  | @cons child line children found hline _ ih =>
    have hsome := isSome_tableLine? hline
    cases line with
    | none =>
      rw [List.filter_cons_of_neg (by rw [← hsome]; simp), List.reduceOption_cons_of_none]
      exact ih
    | some line =>
      rw [List.filter_cons_of_pos (by rw [← hsome]; rfl), List.reduceOption_cons_of_some]
      exact .cons hline ih

/-- The statements that create a table begin with its definition, which has the lines of those
children that stand in it. -/
theorem create_table {s : Statement} {snapshot : Snapshot} {definition : TableDefinition}
    {statements : List String} (hdefinition : s.definition = .table definition)
    (h : dialect.create s snapshot detached = .ok statements) :
    ∃ lines rest, statements = dialect.tableText s definition lines :: rest ∧
      List.Forall₂ (fun child line => dialect.tableLine? detached child = .ok (some line))
        (snapshot.inline detached s.id) lines := by
  suffices ∃ lines rest, statements = dialect.tableText s definition lines :: rest ∧
      (snapshot.children s.id).filterMapM (dialect.tableLine? detached) = .ok lines by
    obtain ⟨lines, rest, hstatements, hlines⟩ := this
    exact ⟨lines, rest, hstatements, forall₂_inline hlines⟩
  cases dialect with
  | postgres =>
    simp only [create, Ddl.Postgres.create, Ddl.Postgres.define?, hdefinition] at h
    exact ⟨_, _, (Except.ok.inj h).symm, filterMapM_ok _⟩
  | msSql =>
    simp only [create, Ddl.MsSql.create, Ddl.MsSql.define?, hdefinition] at h
    split at h
    · cases h
    · exact ⟨_, _, (Except.ok.inj h).symm, filterMapM_ok _⟩
  | clickHouse =>
    simp only [create, Ddl.ClickHouse.create, Ddl.ClickHouse.define?, hdefinition] at h
    split at h
    · cases h
    · obtain ⟨_, hdefined, rfl⟩ := map_eq_ok.1 h
      obtain ⟨text, htext, rfl⟩ := map_eq_ok.1 hdefined
      obtain ⟨lines, hlines, hjoined⟩ := bind_eq_ok.1 htext
      obtain rfl := Except.ok.inj hjoined
      exact ⟨lines, [], rfl, hlines⟩

end Dialect

end SchemaMigration
