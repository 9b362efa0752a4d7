import SchemaMigration.Proofs.Ddl.Alteration
import SchemaMigration.Proofs.Ddl.Postgres.ChangeTexts
import SchemaMigration.Proofs.Object.RoundTrip

/-!
# Changes in place lead to the new definition

Each statement about the definition of a table, a column, an index or a policy makes a change
(`BodyChange`), and what the change does to the definition is said here without looking at how the
changes were found (`BodyChange.apply`). The changes that are written lead from the old definition
to the new one (`leads_of_bodyChanges?`), and which ones they are can be read from the statements
(`read?_of_bodyChanges?`). No changes lead to a definition that differs in what has no clause
(`Keeps`), and only such a one is created anew (`definition_reached`).

A tablespace is always named in a statement, so a definition without one is read as one in the
default tablespace (`explicit`); the empty list of roles is written as `PUBLIC`.
-/

namespace SchemaMigration.Ddl.Postgres

/-! ## What changes do -/

/-- A table after a change. -/
def TableChange.apply (table : TableDefinition) : TableChange → TableDefinition
  | tablespace name => { table with tablespace := some (name.getD defaultTablespace) }
  | unlogged value => { table with unlogged := value }
  | set options => { table with options := Codec.insertAll options table.options }
  | reset names =>
    { table with options := table.options.filter fun entry => !names.contains entry.1 }

/-- A column after a change. A type without a collation has its default one. -/
def ColumnChange.apply (column : ColumnDefinition) : ColumnChange → ColumnDefinition
  | type dataType collation _ => { column with dataType, collation }
  | default expression => { column with default := expression }
  | notNull value => { column with notNull := value }

/-- A policy after a change by one clause. -/
def PolicyClause.apply (policy : PolicyDefinition) : PolicyClause → PolicyDefinition
  | roles names => { policy with roles := names }
  | condition expression => { policy with usingCondition := some expression }
  | withCheck expression => { policy with withCheck := some expression }

/-- What a statement changes about the definition of a table, a column, an index or a policy. -/
inductive BodyChange where
  | table (change : TableChange)
  | column (change : ColumnChange)
  /-- The tablespace of an index. -/
  | index (tablespace : Option String)
  | policy (clauses : List PolicyClause)
  deriving DecidableEq, Repr

namespace BodyChange

/-- A change as a statement about an object. -/
def render (s : Statement) : BodyChange → String
  | table change => "ALTER TABLE " ++ qualified s.id ++ " " ++ change.render
  | column change =>
    "ALTER TABLE " ++ owningTable s.id ++ " ALTER COLUMN " ++ quote s.name ++ " " ++
      change.render (quote s.name)
  | index tablespace =>
    "ALTER INDEX " ++ inSchema s.id ++ " SET TABLESPACE " ++
      quote (tablespace.getD defaultTablespace)
  | policy clauses =>
    "ALTER POLICY " ++ onTable s.id ++ " " ++ Text.join " " (clauses.map PolicyClause.render)

/-- A definition after a change. -/
def apply : Definition → BodyChange → Definition
  | .table old, table change => .table (change.apply old)
  | .column old, column change => .column (change.apply old)
  | .index old, index tablespace =>
    .index { old with tablespace := some (tablespace.getD defaultTablespace) }
  | .policy old, policy clauses => .policy (clauses.foldl PolicyClause.apply old)
  | other, _ => other

/-- A change that says something: no list of parameters or of clauses is empty. -/
def Proper : BodyChange → Prop
  | table (.set options) => options ≠ []
  | table (.reset names) => names ≠ []
  | policy clauses => clauses ≠ []
  | _ => True

/-- The change that a statement about an object says. -/
def read? (s : Statement) (sql : String) : Option BodyChange :=
  match s.definition with
  | .table _ =>
    clause? ("ALTER TABLE " ++ qualified s.id ++ " ") (fun cs => (readTableChange cs).map .table)
      sql.toList
  | .column _ =>
    clause? ("ALTER TABLE " ++ owningTable s.id ++ " ALTER COLUMN " ++ quote s.name ++ " ")
      (fun cs => (readColumnChange (quote s.name) cs).map .column) sql.toList
  | .index _ =>
    clause? ("ALTER INDEX " ++ inSchema s.id ++ " SET TABLESPACE ")
      (fun cs => (identifier? cs).map (.index ∘ some)) sql.toList
  | .policy _ =>
    clause? ("ALTER POLICY " ++ onTable s.id) (fun cs => (readPolicyClauses cs).map .policy)
      sql.toList
  | _ => none

/-- What a change says: the default tablespace is named. -/
def named : BodyChange → BodyChange
  | table change => table change.named
  | index tablespace => index (some (tablespace.getD defaultTablespace))
  | other => other

/-- A statement is the same with the default tablespace named. -/
theorem render_named (s : Statement) (change : BodyChange) :
    change.named.render s = change.render s := by
  cases change with
  | table change => cases change <;> rfl
  | column | index | policy => rfl

/-- A change is the same with the default tablespace named. -/
theorem apply_named (definition : Definition) (change : BodyChange) :
    change.named.apply definition = change.apply definition := by
  cases change with
  | table change => cases change <;> cases definition <;> rfl
  | index => cases definition <;> rfl
  | column | policy => rfl

/-- A change that says something does so with the default tablespace named. -/
theorem proper_named {change : BodyChange} : change.named.Proper ↔ change.Proper := by
  cases change with
  | table change => cases change <;> rfl
  | column | index | policy => rfl

end BodyChange

/-- What a definition holds as text ends where it seems to in a statement. -/
def Plain : Definition → Prop
  | .table table => ∀ option ∈ table.options, PlainOption option
  | .column column => PlainType column.dataType
  | .policy policy =>
    (∀ text ∈ policy.usingCondition, Balanced text) ∧ ∀ text ∈ policy.withCheck, Balanced text
  | _ => True

/-- A definition with its tablespace named. -/
def explicit : Definition → Definition
  | .table old => .table { old with tablespace := some (old.tablespace.getD defaultTablespace) }
  | .index old => .index { old with tablespace := some (old.tablespace.getD defaultTablespace) }
  | other => other

/-- Changes one after another lead from one definition to another one. -/
def Leads (changes : List BodyChange) (old new : Definition) : Prop :=
  explicit (changes.foldl BodyChange.apply old) = explicit new

/-! ## The changes that are written -/

/-- The changes of a table, a column, an index or a policy; nothing if it has to be created anew. -/
def bodyChanges? : Definition → Definition → Option (List BodyChange)
  | .table old, .table new => (tableChanges? old new).map (·.map .table)
  | .column old, .column new => some ((columnChanges old new).map .column)
  | .index old, .index new => (indexTablespace? old new).map fun found => found.toList.map .index
  | .policy old, .policy new =>
    (policyClauses? old new).map fun clauses => if clauses.isEmpty then [] else [.policy clauses]
  | _, _ => none

/-- Two definitions of a table, of a column, of an index or of a policy. -/
inductive Paired : Definition → Definition → Prop
  | table (old new : TableDefinition) : Paired (.table old) (.table new)
  | column (old new : ColumnDefinition) : Paired (.column old) (.column new)
  | index (old new : IndexDefinition) : Paired (.index old) (.index new)
  | policy (old new : PolicyDefinition) : Paired (.policy old) (.policy new)

variable {old s : Statement} {before after : Definition} {changes : List BodyChange}

/-- The statements about a definition are those of its changes. -/
theorem map_sql_definitionChanges? (h : Paired before after) (hafter : s.definition = after) :
    (definitionChanges? before s).map (·.map (·.sql)) =
      (bodyChanges? before after).map (·.map (BodyChange.render s)) := by
  cases h with
  | table old new =>
    simp only [definitionChanges?, hafter, bodyChanges?, Option.map_map]
    refine Option.map_congr fun found _ => ?_
    simp only [Function.comp_apply, List.map_map]
    rfl
  | column old new =>
    simp only [definitionChanges?, hafter, bodyChanges?, Option.map_some, List.map_map]
    rfl
  | index old new =>
    simp only [definitionChanges?, hafter, bodyChanges?, Option.map_map]
    refine Option.map_congr fun found _ => ?_
    simp only [Function.comp_apply, List.map_map]
    rfl
  | policy old new =>
    simp only [definitionChanges?, hafter, bodyChanges?, Option.map_map]
    refine Option.map_congr fun clauses _ => ?_
    cases clauses <;> rfl

/-! ### Where they lead -/

/-- Making a change where it is needed comes to the same as making it anyway. -/
theorem foldl_needed {α β : Type} {make : α → β → α} {a : α} {change : β} {needed : Prop}
    [Decidable needed] (h : ¬ needed → make a change = a) :
    (if needed then [change] else []).foldl make a = make a change := by
  split
  · rfl
  · next hnot => exact (h hnot).symm

/-- Setting storage parameters and leaving out what sets none comes to the same. -/
theorem foldl_set (options : List (String × String)) (table : TableDefinition) :
    (if options.isEmpty then [] else [TableChange.set options]).foldl TableChange.apply table =
      { table with options := Codec.insertAll options table.options } := by
  cases options <;> rfl

/-- Resetting storage parameters and leaving out what resets none comes to the same. -/
theorem foldl_reset (names : List String) (table : TableDefinition) :
    (if names.isEmpty then [] else [TableChange.reset names]).foldl TableChange.apply table =
      { table with options := table.options.filter fun entry => !names.contains entry.1 } := by
  cases names with
  | nil => simp
  | cons name names => rfl

/-- The changes of a table lead to the new one. -/
theorem foldl_tableChanges? {old new : TableDefinition} {found : List TableChange}
    (hold : Codec.Sorted old.options) (hnew : Codec.Sorted new.options)
    (h : tableChanges? old new = some found) :
    explicit (.table (found.foldl TableChange.apply old)) = explicit (.table new) := by
  unfold tableChanges? at h
  split at h
  case isFalse => cases h
  case isTrue hkept =>
    obtain rfl := Option.some.inj h
    have hoptions := options_reached hold hnew
    simp only [Bool.and_eq_true, decide_eq_true_eq] at hkept
    obtain ⟨⟨⟨hpartition, hengine⟩, horder⟩, httl⟩ := hkept
    obtain ⟨options, tablespace, unlogged, _, _, _, _⟩ := old
    obtain ⟨options', tablespace', unlogged', _, _, _, _⟩ := new
    dsimp only at hpartition hengine horder httl hoptions ⊢
    subst hpartition hengine horder httl
    rw [List.foldl_append, List.foldl_append, List.foldl_append, foldl_reset, foldl_set]
    -- A tablespace that stays may be the default one without being named so.
    by_cases htablespace : tablespace = tablespace' <;>
      by_cases hunlogged : unlogged = unlogged' <;>
      simp only [htablespace, hunlogged, ne_eq, not_true, not_false_iff, if_true, if_false,
        List.foldl_nil, List.foldl_cons, TableChange.apply, hoptions, explicit, Option.getD_some]

/-- The changes of a column lead to the new one. -/
theorem foldl_columnChanges (old new : ColumnDefinition) :
    (columnChanges old new).foldl ColumnChange.apply old = new := by
  have htype : ¬ (old.dataType ≠ new.dataType ∨ old.collation ≠ new.collation) → ∀ converts,
      ColumnChange.apply old (.type new.dataType new.collation converts) = old := fun hsame _ => by
    obtain ⟨htype, hcollation⟩ := not_or.1 hsame
    rw [ColumnChange.apply, ← not_not.1 htype, ← not_not.1 hcollation]
  have hdefault : ¬ old.default ≠ new.default →
      let typed := { old with dataType := new.dataType, collation := new.collation }
      ColumnChange.apply typed (.default new.default) = typed := fun hsame => by
    dsimp only [ColumnChange.apply]
    rw [← not_not.1 hsame]
  have hnotNull : ¬ old.notNull ≠ new.notNull →
      let defaulted := { new with notNull := old.notNull }
      ColumnChange.apply defaulted (.notNull new.notNull) = defaulted := fun hsame => by
    dsimp only [ColumnChange.apply]
    rw [← not_not.1 hsame]
  rw [columnChanges, List.foldl_append, List.foldl_append, foldl_needed fun hsame => htype hsame _]
  exact (congrArg (List.foldl ColumnChange.apply · _) (foldl_needed hdefault)).trans
    (foldl_needed hnotNull)

/-- The tablespace of an index leads to the new one. -/
theorem foldl_indexTablespace? {old new : IndexDefinition} {found : Option (Option String)}
    (h : indexTablespace? old new = some found) :
    explicit ((found.toList.map BodyChange.index).foldl BodyChange.apply (.index old)) =
      explicit (.index new) := by
  unfold indexTablespace? at h
  split at h
  case isFalse => cases h
  case isTrue hkept =>
    obtain rfl := Option.some.inj h
    rw [← hkept]
    split
    · next hsame => rw [← hsame]; rfl
    · rfl

/-- Writing an expression that differs comes to having the new one, unless there is none any
more. -/
theorem foldl_expression {α β : Type} {g : α → β → α} {c : String → β} {f : Option String → α}
    {before after : Option String}
    (hkept : before.isSome → after.isNone = false)
    (hmake : ∀ expression, g (f before) (c expression) = f (some expression)) :
    (if before ≠ after then (after.map c).toList else []).foldl g (f before) = f after := by
  by_cases hsame : before = after
  · rw [if_neg (not_not.2 hsame), hsame]
    rfl
  · rw [if_pos hsame]
    cases after with
    | none => exact absurd (hkept (Option.isSome_iff_ne_none.2 hsame)) (by simp)
    | some expression => exact hmake expression

/-- The clauses of a policy lead to the new one. -/
theorem foldl_policyClauses? {old new : PolicyDefinition} {found : List PolicyClause}
    (h : policyClauses? old new = some found) : found.foldl PolicyClause.apply old = new := by
  unfold policyClauses? at h
  split at h
  case isTrue => cases h
  case isFalse hkept =>
    obtain rfl := Option.some.inj h
    simp only [not_or, not_and, Decidable.not_not, Bool.not_eq_true] at hkept
    obtain ⟨hcommand, hpermissive, hcondition, hcheck⟩ := hkept
    have hroles : ¬ old.roles ≠ new.roles → PolicyClause.apply old (.roles new.roles) = old :=
      fun hsame => by rw [PolicyClause.apply, ← not_not.1 hsame]
    have hconditionSet := foldl_expression (g := PolicyClause.apply) (c := .condition)
      (f := fun found => { new with usingCondition := found, withCheck := old.withCheck })
      hcondition fun _ => rfl
    have hcheckSet := foldl_expression (g := PolicyClause.apply) (c := .withCheck)
      (f := fun found => { new with withCheck := found }) hcheck fun _ => rfl
    rw [List.foldl_append, List.foldl_append, foldl_needed hroles, PolicyClause.apply, hcommand,
      hpermissive]
    exact (congrArg (List.foldl PolicyClause.apply · _) hconditionSet).trans hcheckSet

/-- The changes that are written lead from the old definition to the new one. -/
theorem leads_of_bodyChanges? (hpaired : Paired before after) (hbefore : before.Sorted)
    (hafter : after.Sorted) (h : bodyChanges? before after = some changes) :
    Leads changes before after := by
  unfold Leads
  cases hpaired with
  | table old new =>
    obtain ⟨found, hfound, rfl⟩ := Option.map_eq_some_iff.1 h
    have hhom : ∀ table change, (BodyChange.table change).apply (.table table) =
        .table (change.apply table) := fun _ _ => rfl
    rw [List.foldl_map, List.foldl_hom Definition.table hhom]
    exact foldl_tableChanges? (hbefore old rfl) (hafter new rfl) hfound
  | column old new =>
    obtain rfl := Option.some.inj h
    have hhom : ∀ column change, (BodyChange.column change).apply (.column column) =
        .column (change.apply column) := fun _ _ => rfl
    rw [List.foldl_map, List.foldl_hom Definition.column hhom, foldl_columnChanges]
  | index old new =>
    obtain ⟨found, hfound, rfl⟩ := Option.map_eq_some_iff.1 h
    exact foldl_indexTablespace? hfound
  | policy old new =>
    obtain ⟨found, hfound, rfl⟩ := Option.map_eq_some_iff.1 h
    rw [← foldl_policyClauses? hfound]
    cases found <;> rfl

/-- The changes of a table set what differs; they set or reset storage parameters only if there are
some to set or reset. -/
theorem eq_of_mem_tableChanges? {old new : TableDefinition} {found : List TableChange}
    {change : TableChange} (h : tableChanges? old new = some found) (hin : change ∈ found) :
    change = .tablespace new.tablespace ∨ change = .unlogged new.unlogged ∨
      (setOptions old.options new.options ≠ [] ∧
        change = .set (setOptions old.options new.options)) ∨
      (goneOptions old.options new.options ≠ [] ∧
        change = .reset (goneOptions old.options new.options)) := by
  unfold tableChanges? at h
  split at h
  case isFalse => cases h
  case isTrue =>
    obtain rfl := Option.some.inj h
    simp only [List.mem_append, List.mem_ite_nil_left, List.mem_ite_nil_right, List.mem_singleton,
      List.isEmpty_iff] at hin
    obtain ((⟨-, htablespace⟩ | ⟨-, hunlogged⟩) | hset) | hreset := hin
    · exact .inl htablespace
    · exact .inr (.inl hunlogged)
    · exact .inr (.inr (.inl hset))
    · exact .inr (.inr (.inr hreset))

/-- The changes that are written all say something. -/
theorem proper_of_bodyChanges? (hpaired : Paired before after)
    (h : bodyChanges? before after = some changes) : ∀ change ∈ changes, change.Proper := by
  cases hpaired with
  | table old new =>
    obtain ⟨found, hfound, rfl⟩ := Option.map_eq_some_iff.1 h
    intro change hchange
    obtain ⟨change, hin, rfl⟩ := List.mem_map.1 hchange
    obtain rfl | rfl | ⟨hset, rfl⟩ | ⟨hgone, rfl⟩ := eq_of_mem_tableChanges? hfound hin
    · trivial
    · trivial
    · exact hset
    · exact hgone
  | column old new =>
    obtain rfl := Option.some.inj h
    intro change hchange
    obtain ⟨change, -, rfl⟩ := List.mem_map.1 hchange
    trivial
  | index old new =>
    obtain ⟨found, -, rfl⟩ := Option.map_eq_some_iff.1 h
    intro change hchange
    obtain ⟨tablespace, -, rfl⟩ := List.mem_map.1 hchange
    trivial
  | policy old new =>
    obtain ⟨clauses, -, rfl⟩ := Option.map_eq_some_iff.1 h
    intro change hchange
    split at hchange
    · cases hchange
    · next hclauses =>
      obtain rfl := List.mem_singleton.1 hchange
      exact fun hnil => hclauses (List.isEmpty_iff.2 hnil)

/-! ### How they are read -/

/-- The changes of a table end where they seem to if its storage parameters do. -/
theorem plain_of_tableChanges? {old new : TableDefinition} {found : List TableChange}
    (hold : Plain (.table old)) (hnew : Plain (.table new))
    (h : tableChanges? old new = some found) : ∀ change ∈ found, change.Plain := by
  intro change hin
  obtain rfl | rfl | ⟨hset, rfl⟩ | ⟨hgone, rfl⟩ := eq_of_mem_tableChanges? h hin
  · trivial
  · trivial
  · exact ⟨hset, fun option hoption => hnew option (List.mem_of_mem_filter hoption)⟩
  · refine ⟨hgone, fun name hname => ?_⟩
    obtain ⟨option, hoption, rfl⟩ := List.mem_map.1 (List.mem_of_mem_filter hname)
    exact (hold option hoption).2.1

/-- The changes of a column end where they seem to if its type does. -/
theorem plain_of_columnChanges {old new : ColumnDefinition} (hnew : Plain (.column new)) :
    ∀ change ∈ columnChanges old new, change.Plain := by
  intro change hchange
  simp only [columnChanges, List.mem_append, List.mem_ite_nil_right, List.mem_singleton] at hchange
  obtain (⟨-, rfl⟩ | ⟨-, rfl⟩) | ⟨-, rfl⟩ := hchange
  · exact hnew
  · trivial
  · trivial

/-- The changes of a policy are clauses in their order; what they say is in the new one. -/
theorem policyClauses?_eq {old new : PolicyDefinition} {found : List PolicyClause}
    (h : policyClauses? old new = some found) : ∃ roles condition withCheck,
      found = policyClauses roles condition withCheck ∧
      (∀ text ∈ condition, text ∈ new.usingCondition) ∧
      ∀ text ∈ withCheck, text ∈ new.withCheck := by
  unfold policyClauses? at h
  split at h
  case isTrue => cases h
  case isFalse =>
    refine ⟨if old.roles ≠ new.roles then some new.roles else none,
      if old.usingCondition ≠ new.usingCondition then new.usingCondition else none,
      if old.withCheck ≠ new.withCheck then new.withCheck else none, ?_, ?_, ?_⟩
    · rw [← Option.some.inj h, policyClauses]
      congr 1
      · congr 1 <;> split <;> rfl
      · split <;> rfl
    · intro text htext
      split at htext
      · exact htext
      · cases htext
    · intro text htext
      split at htext
      · exact htext
      · cases htext

/-- The texts of clauses, each with a blank in front, are the texts with blanks between them. -/
theorem policyText_eq {clauses : List PolicyClause} (hne : clauses ≠ []) :
    policyText clauses = (" " ++ Text.join " " (clauses.map PolicyClause.render)).toList := by
  unfold Text.join
  induction clauses with
  | nil => exact absurd rfl hne
  | cons clause clauses ih =>
    rw [policyText, List.flatMap_cons]
    cases clauses with
    | nil => simp
    | cons next clauses =>
      rw [List.map_cons, List.map_cons, String.intercalate_cons_cons, ← List.map_cons]
      have hrest := ih (List.cons_ne_nil _ _)
      rw [policyText, String.toList_append] at hrest
      rw [hrest]
      simp

/-- The changes that are written are read back from their statements, with the default tablespace
named. -/
theorem read?_of_bodyChanges? (hpaired : Paired old.definition s.definition)
    (hold : Plain old.definition) (hnew : Plain s.definition)
    (h : bodyChanges? old.definition s.definition = some changes) :
    ∀ change ∈ changes, BodyChange.read? s (change.render s) = some change.named := by
  intro change hchange
  unfold BodyChange.read?
  generalize old.definition = before at *
  generalize s.definition = after at *
  cases hpaired with
  | table old new =>
    obtain ⟨found, hfound, rfl⟩ := Option.map_eq_some_iff.1 h
    obtain ⟨change, hin, rfl⟩ := List.mem_map.1 hchange
    have htext : (BodyChange.table change).render s =
        "ALTER TABLE " ++ qualified s.id ++ " " ++ change.render := rfl
    dsimp only
    rw [htext, String.toList_append, clause?_append,
      readTableChange_render (plain_of_tableChanges? hold hnew hfound change hin)]
    rfl
  | column old new =>
    obtain rfl := Option.some.inj h
    obtain ⟨change, hin, rfl⟩ := List.mem_map.1 hchange
    have htext : (BodyChange.column change).render s = "ALTER TABLE " ++ owningTable s.id ++
        " ALTER COLUMN " ++ quote s.name ++ " " ++ change.render (quote s.name) := rfl
    dsimp only
    rw [htext, String.toList_append, clause?_append,
      readColumnChange_render (plain_of_columnChanges hnew change hin)]
    rfl
  | index old new =>
    obtain ⟨found, -, rfl⟩ := Option.map_eq_some_iff.1 h
    obtain ⟨tablespace, -, rfl⟩ := List.mem_map.1 hchange
    have htext : (BodyChange.index tablespace).render s = "ALTER INDEX " ++ inSchema s.id ++
        " SET TABLESPACE " ++ quote (tablespace.getD defaultTablespace) := rfl
    dsimp only
    rw [htext, String.toList_append, clause?_append, identifier?_quote]
    rfl
  | policy old new =>
    obtain ⟨clauses, hfound, rfl⟩ := Option.map_eq_some_iff.1 h
    obtain ⟨roles, condition, withCheck, hclauses, hcondition, hcheck⟩ := policyClauses?_eq hfound
    split at hchange
    · cases hchange
    · next hsome =>
      obtain rfl := List.mem_singleton.1 hchange
      have htext : (BodyChange.policy clauses).render s = "ALTER POLICY " ++ onTable s.id ++ " " ++
          Text.join " " (clauses.map PolicyClause.render) := rfl
      dsimp only
      rw [htext, String.append_assoc, String.toList_append, clause?_append,
        ← policyText_eq (mt List.isEmpty_iff.2 hsome), hclauses,
        readPolicyClauses_policyText roles (fun text hin => hnew.1 text (hcondition text hin))
          fun text hin => hnew.2 text (hcheck text hin)]
      rfl

/-! ## What has no clause -/

/-- What no change touches is the same in two definitions: how a table is partitioned and stored,
all of an index but its tablespace, the command and the mode of a policy, and that it has a
condition. -/
inductive Keeps : Definition → Definition → Prop
  | table {old new : TableDefinition} (partitionBy : old.partitionBy = new.partitionBy)
    (engine : old.engine = new.engine) (orderBy : old.orderBy = new.orderBy)
    (ttl : old.ttl = new.ttl) : Keeps (.table old) (.table new)
  | column (old new : ColumnDefinition) : Keeps (.column old) (.column new)
  | index (old : IndexDefinition) (tablespace : Option String) :
    Keeps (.index old) (.index { old with tablespace })
  | policy {old new : PolicyDefinition} (command : old.command = new.command)
    (permissive : old.permissive = new.permissive)
    (condition : old.usingCondition.isSome → new.usingCondition.isSome)
    (withCheck : old.withCheck.isSome → new.withCheck.isSome) :
    Keeps (.policy old) (.policy new)

/-- A clause of a policy keeps what has no clause. -/
theorem Keeps.policy_apply {old new : PolicyDefinition} (clause : PolicyClause)
    (h : Keeps (.policy old) (.policy new)) : Keeps (.policy old) (.policy (clause.apply new)) := by
  cases h with
  | policy command permissive condition withCheck =>
    cases clause with
    | roles names => exact .policy command permissive condition withCheck
    | condition expression => exact .policy command permissive (fun _ => rfl) withCheck
    | withCheck expression => exact .policy command permissive condition fun _ => rfl

/-- A change keeps what has no clause. -/
theorem Keeps.apply (change : BodyChange) (h : Keeps before after) :
    Keeps before (change.apply after) := by
  cases h with
  | table partitionBy engine orderBy ttl =>
    cases change with
    | table change => cases change <;> exact .table partitionBy engine orderBy ttl
    | column | index | policy => exact .table partitionBy engine orderBy ttl
  | column old new =>
    cases change with
    | column change => exact .column old _
    | table | index | policy => exact .column old new
  | index old tablespace =>
    cases change with
    | index name => exact .index old _
    | table | column | policy => exact .index old tablespace
  | policy command permissive condition withCheck =>
    have h := Keeps.policy command permissive condition withCheck
    cases change with
    | policy clauses =>
      exact List.foldlRecOn (motive := fun new => Keeps _ (.policy new)) clauses _ h
        fun _ h clause _ => h.policy_apply clause
    | table | column | index => exact h

/-- Changes one after another keep what has no clause. -/
theorem Keeps.foldl (changes : List BodyChange) (h : Keeps before after) :
    Keeps before (changes.foldl BodyChange.apply after) :=
  List.foldlRecOn changes _ h fun _ h change _ => h.apply change

/-- What has no clause does not depend on how the tablespace is named. -/
theorem keeps_explicit : Keeps before (explicit after) ↔ Keeps before after := by
  cases after with
  | table new =>
    constructor <;> rintro ⟨⟩ <;> exact .table ‹_› ‹_› ‹_› ‹_›
  | index new =>
    obtain ⟨columns, unique, method, predicate, tablespace, granularity⟩ := new
    constructor <;> rintro ⟨⟩ <;> exact .index _ _
  | _ => exact .rfl

/-- Definitions to which changes lead keep what has no clause. -/
theorem keeps_of_leads (hpaired : Paired before after) (h : Leads changes before after) :
    Keeps before after := by
  have hself : Keeps before before := by
    cases hpaired with
    | table => exact .table rfl rfl rfl rfl
    | column => exact .column _ _
    | index old => exact .index old old.tablespace
    | policy => exact .policy rfl rfl id id
  rw [← keeps_explicit, ← h, keeps_explicit]
  exact hself.foldl changes

/-- Where all that has no clause is kept, the changes are found. -/
theorem Keeps.bodyChanges?_isSome (h : Keeps before after) :
    (bodyChanges? before after).isSome := by
  cases h with
  | table partitionBy engine orderBy ttl =>
    simp [bodyChanges?, tableChanges?, partitionBy, engine, orderBy, ttl]
  | column => rfl
  | index => simp [bodyChanges?, indexTablespace?]
  | policy command permissive condition withCheck =>
    simpa [bodyChanges?, policyClauses?, command, permissive, Option.isSome_iff_ne_none] using
      And.intro condition withCheck

/-! ## From the old definition to the new one -/

/-- A table, a column, an index or a policy is created anew exactly if no changes lead to its new
definition. Otherwise the statements about the definition are, in order, those of changes that say
something each and lead from the old definition to the new one, and which changes these are can be
read from the statements. -/
theorem definition_reached (old s : Statement) (hpaired : Paired old.definition s.definition)
    (hold : old.definition.Sorted) (hnew : s.definition.Sorted) :
    (alter old s = .recreate ↔
      ∀ changes, ¬ Leads changes old.definition s.definition) ∧
    (alter old s ≠ .recreate → ∃ changes : List BodyChange,
      (Decision.ofAlteration (alter old s)).statements =
          changes.map (BodyChange.render s) ++ remarkStatements old s ∧
        (∀ change ∈ changes, change.Proper) ∧
        Leads changes old.definition s.definition ∧
        (Plain old.definition → Plain s.definition →
          ∀ change ∈ changes, BodyChange.read? s (change.render s) = some change)) := by
  have hsql := map_sql_definitionChanges? hpaired rfl
  have hfound : alter old s ≠ .recreate → ∃ changes : List BodyChange,
      bodyChanges? old.definition s.definition = some changes ∧
      (Decision.ofAlteration (alter old s)).statements =
          changes.map (BodyChange.render s) ++ remarkStatements old s := fun halter => by
    obtain ⟨found, hfound⟩ := Option.ne_none_iff_exists'.1 (mt alter_eq_recreate.2 halter)
    rw [hfound, Option.map_some] at hsql
    obtain ⟨changes, hchanges, hrender⟩ := Option.map_eq_some_iff.1 hsql.symm
    exact ⟨changes, hchanges, by rw [statements_alter hfound, hrender]⟩
  refine ⟨⟨fun halter changes hleads => ?_, fun hnone => ?_⟩, fun halter => ?_⟩
  · rw [alter_eq_recreate.1 halter, Option.map_none] at hsql
    have hsome := (keeps_of_leads hpaired hleads).bodyChanges?_isSome
    rw [Option.map_eq_none_iff.1 hsql.symm] at hsome
    cases hsome
  · by_contra halter
    obtain ⟨changes, hchanges, -⟩ := hfound halter
    exact hnone changes (leads_of_bodyChanges? hpaired hold hnew hchanges)
  · -- The changes are those that were found, as they are read: with the default tablespace named.
    obtain ⟨changes, hchanges, hstatements⟩ := hfound halter
    refine ⟨changes.map BodyChange.named, ?_, ?_, ?_, fun hplain hplain' => ?_⟩
    · rw [hstatements, List.map_map]
      exact congrArg (· ++ _) (List.map_congr_left fun change _ => (change.render_named s).symm)
    · exact List.forall_mem_map.2 fun change hin =>
        BodyChange.proper_named.2 (proper_of_bodyChanges? hpaired hchanges change hin)
    · rw [Leads, List.foldl_map]
      simp only [BodyChange.apply_named]
      exact leads_of_bodyChanges? hpaired hold hnew hchanges
    · refine List.forall_mem_map.2 fun change hin => ?_
      rw [change.render_named]
      exact read?_of_bodyChanges? hpaired hplain hplain' hchanges change hin

/-- A table of orders. -/
def orders (table : TableDefinition) : Statement where
  id := ⟨.table, ["public", "orders"]⟩
  parent := some ⟨.schema, ["public"]⟩
  definition := .table table

/-- The totals of the orders. -/
def total (column : ColumnDefinition) : Statement where
  id := ⟨.column, ["public", "orders", "total"]⟩
  parent := some ⟨.table, ["public", "orders"]⟩
  definition := .column column

/-- An index of the orders. -/
def byDay (index : IndexDefinition) : Statement where
  id := ⟨.index, ["public", "orders", "by_day"]⟩
  parent := some ⟨.table, ["public", "orders"]⟩
  definition := .index index

/-- A policy for the orders. -/
def ownOrders (policy : PolicyDefinition) : Statement where
  id := ⟨.policy, ["public", "orders", "own"]⟩
  parent := some ⟨.table, ["public", "orders"]⟩
  definition := .policy policy

/-- Statements say of an object, as they are read, what leads from its old definition to the new
one. -/
def SayHow (old s : Statement) (texts : List String) : Prop :=
  ∃ changes, texts.map (BodyChange.read? s) = changes.map some ∧
    Leads changes old.definition s.definition

/-- Statements that are those of changes, with no others behind them, say how. -/
theorem sayHow {texts : List String}
    (hstatements : (Decision.ofAlteration (alter old s)).statements =
      changes.map (BodyChange.render s) ++ remarkStatements old s)
    (hnone : remarkStatements old s = [])
    (htexts : (Decision.ofAlteration (alter old s)).statements = texts)
    (hread : ∀ change ∈ changes, BodyChange.read? s (change.render s) = some change)
    (hleads : Leads changes old.definition s.definition) : SayHow old s texts := by
  rw [hnone, List.append_nil, htexts] at hstatements
  refine ⟨changes, ?_, hleads⟩
  rw [hstatements, List.map_map]
  exact List.map_congr_left hread

/-- A table leaves its tablespace, is logged no longer, and has one parameter set, one changed and
one reset; no changes partition it. A column gets another type with a collation, a default, and
values that may be missing; an index gets back to the default tablespace; a policy is for other
roles and has its condition changed. -/
theorem orders_reached :
    let before : TableDefinition :=
      { options := [("autovacuum_enabled", "false"), ("fillfactor", "70")]
        tablespace := some "fast" }
    let after : TableDefinition :=
      { options := [("fillfactor", "80"), ("parallel_workers", "4")], unlogged := true }
    let partitioned : TableDefinition := { partitionBy := some "RANGE (day)" }
    let amount : ColumnDefinition := { dataType := "numeric(8, 2)", notNull := true }
    let text : ColumnDefinition :=
      { dataType := "character varying(20)", collation := some "C"
        default := some "'none'::text" }
    let placed : IndexDefinition := { columns := ["day"], tablespace := some "fast" }
    let unplaced : IndexDefinition := { columns := ["day"] }
    let policy : PolicyDefinition :=
      { roles := ["sales"], usingCondition := some "owner = current_user" }
    let changed : PolicyDefinition :=
      { roles := ["sales", "Support"]
        usingCondition := some "(owner = upper(')' || current_user))"
        withCheck := some "total > 0" }
    (Definition.table before).Sorted ∧ (Definition.table after).Sorted ∧
      (Definition.table partitioned).Sorted ∧
      SayHow (orders before) (orders after)
        ["ALTER TABLE public.orders SET TABLESPACE pg_default",
          "ALTER TABLE public.orders SET UNLOGGED",
          "ALTER TABLE public.orders SET (fillfactor = 80, parallel_workers = 4)",
          "ALTER TABLE public.orders RESET (autovacuum_enabled)"] ∧
      SayHow (total amount) (total text)
        ["ALTER TABLE public.orders ALTER COLUMN total TYPE character varying(20) " ++
            "COLLATE \"C\" USING total::character varying(20)",
          "ALTER TABLE public.orders ALTER COLUMN total SET DEFAULT 'none'::text",
          "ALTER TABLE public.orders ALTER COLUMN total DROP NOT NULL"] ∧
      SayHow (byDay placed) (byDay unplaced)
        ["ALTER INDEX public.by_day SET TABLESPACE pg_default"] ∧
      SayHow (ownOrders policy) (ownOrders changed)
        ["ALTER POLICY own ON public.orders TO sales, \"Support\" " ++
          "USING ((owner = upper(')' || current_user))) WITH CHECK (total > 0)"] ∧
      ∀ changes, ¬ Leads changes (.table before) (.table partitioned) := by
  intro before after partitioned amount text placed unplaced policy changed
  have hbefore : (Definition.table before).Sorted := by
    rintro _ ⟨⟩
    decide
  have hafter : (Definition.table after).Sorted := by
    rintro _ ⟨⟩
    decide
  have hpartitioned : (Definition.table partitioned).Sorted := by
    rintro _ ⟨⟩
    decide
  refine ⟨hbefore, hafter, hpartitioned, ?_, ?_, ?_, ?_, ?_⟩
  · obtain ⟨changes, hstatements, -, hleads, hread⟩ := (definition_reached (orders before)
      (orders after) (.table before after) hbefore hafter).2 (by decide +kernel)
    exact sayHow hstatements rfl (by decide +kernel)
      (hread (by change ∀ option ∈ before.options, PlainOption option; decide +kernel)
        (by change ∀ option ∈ after.options, PlainOption option; decide +kernel)) hleads
  · obtain ⟨changes, hstatements, -, hleads, hread⟩ := (definition_reached (total amount)
      (total text) (.column amount text) (by rintro _ ⟨⟩) (by rintro _ ⟨⟩)).2 (by decide +kernel)
    exact sayHow hstatements rfl (by decide +kernel)
      (hread (by change PlainType _; decide +kernel) (by change PlainType _; decide +kernel)) hleads
  · obtain ⟨changes, hstatements, -, hleads, hread⟩ := (definition_reached (byDay placed)
      (byDay unplaced) (.index placed unplaced) (by rintro _ ⟨⟩) (by rintro _ ⟨⟩)).2
      (by decide +kernel)
    exact sayHow hstatements rfl (by decide +kernel) (hread trivial trivial) hleads
  · obtain ⟨changes, hstatements, -, hleads, hread⟩ := (definition_reached (ownOrders policy)
      (ownOrders changed) (.policy policy changed) (by rintro _ ⟨⟩) (by rintro _ ⟨⟩)).2
      (by decide +kernel)
    exact sayHow hstatements rfl (by decide +kernel)
      (hread (by change _ ∧ _; decide +kernel) (by change _ ∧ _; decide +kernel)) hleads
  · exact (definition_reached (orders before) (orders partitioned) (.table before partitioned)
      hbefore hpartitioned).1.1 (by decide +kernel)

end SchemaMigration.Ddl.Postgres
