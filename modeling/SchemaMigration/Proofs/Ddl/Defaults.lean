import Mathlib.Data.Finset.Dedup
import Mathlib.Data.Finset.Erase
import Mathlib.Data.Finset.Filter
import Mathlib.Data.Finset.Insert
import Mathlib.Data.Finset.Lattice.Lemmas
import SchemaMigration.Proofs.Ddl.Verb

/-!
# Default constraints

In MS SQL the default of a column is a constraint, whose name is made of those of the table and of
the column. Each statement of a script changes which columns have such constraints
(`Ddl.MsSql.DefaultChange`): the definition of a table or column adds them
(`Ddl.MsSql.flatMap_createdDefaults`), a column or table that is dropped takes them along
(`Ddl.MsSql.flatMap_droppedDefaults`), and an altered column has its one replaced
(`Ddl.MsSql.flatMap_alteredDefaults`). Changes are made one after the other, as long as each new
name is free in its schema and each constraint that is dropped is there (`DefaultChange.run`).
-/

namespace SchemaMigration

/-- The default of a column; nothing else has one. -/
def Statement.default? (s : Statement) : Option String :=
  match s.definition with
  | .column column => column.default
  | _ => none

/-- What has a default is a column. -/
theorem Statement.default?_eq_some {s : Statement} {default : String} :
    s.default? = some default ↔
      ∃ column, s.definition = .column column ∧ column.default = some default := by
  unfold default?
  cases s.definition <;> simp

/-- Only columns have defaults. -/
theorem Statement.kind_of_default? {s : Statement} (htyped : s.definition.kind = s.kind)
    (h : s.default?.isSome = true) : s.kind = .column := by
  obtain ⟨default, hdefault⟩ := Option.isSome_iff_exists.1 h
  obtain ⟨column, hcolumn, -⟩ := Statement.default?_eq_some.1 hdefault
  rw [← htyped, hcolumn]
  rfl

/-- What is joined contains each of the texts. -/
theorem Text.infix_join {sep text : String} {texts : List String} (h : text ∈ texts) :
    text.toList <:+: (join sep texts).toList := by
  induction texts with
  | nil => cases h
  | cons first rest ih =>
    cases rest with
    | nil =>
      rw [List.mem_singleton.1 h, join, String.intercalate_singleton]
    | cons second rest =>
      rw [join, String.intercalate_cons_cons, String.toList_append, String.toList_append]
      rcases List.mem_cons.1 h with rfl | h
      · exact (List.infix_append [] _ _).trans (List.infix_append [] _ _)
      · exact (ih h).trans (List.suffix_append _ _).isInfix

namespace Ddl.MsSql

/-! ## Changes of default constraints -/

/-- A change of the default constraints that there are: a column gets one or loses the one that it
has, or a table is dropped together with those of its columns. -/
inductive DefaultChange where
  | add (column : ObjectId)
  | drop (column : ObjectId)
  | clear (table : ObjectId)
  deriving DecidableEq, Repr

/-- No two columns of one schema have default constraints of one name. -/
def NamesApart (columns : Finset ObjectId) : Prop :=
  ∀ a ∈ columns, ∀ b ∈ columns, a.schemaName? = b.schemaName? → defaultName a = defaultName b →
    a = b

/-- Whether the names of default constraints are apart can be computed. -/
instance : DecidablePred NamesApart := fun columns =>
  inferInstanceAs (Decidable (∀ a ∈ columns, ∀ b ∈ columns, _ → _ → _))

/-- Fewer names are apart if more are. -/
theorem NamesApart.mono {few many : Finset ObjectId} (hsub : few ⊆ many) (h : NamesApart many) :
    NamesApart few :=
  fun a ha b hb => h a (hsub ha) b (hsub hb)

namespace DefaultChange

variable {columns : Finset ObjectId} {change : DefaultChange}

/-- A change makes sense where some columns have default constraints: none of the schema has the
name of a new one, and one that is dropped is there. -/
def Admits (columns : Finset ObjectId) : DefaultChange → Prop
  | add column => ∀ other ∈ columns, other.schemaName? = column.schemaName? →
      defaultName other ≠ defaultName column
  | drop column => column ∈ columns
  | clear _ => True

/-- Whether a change makes sense can be computed. -/
instance (columns : Finset ObjectId) : ∀ change, Decidable (Admits columns change)
  | add _ => inferInstanceAs (Decidable (∀ other ∈ columns, _ → _))
  | drop _ => inferInstanceAs (Decidable (_ ∈ _))
  | clear _ => inferInstanceAs (Decidable True)

/-- The columns that have default constraints after a change. -/
def effect (columns : Finset ObjectId) : DefaultChange → Finset ObjectId
  | add column => insert column columns
  | drop column => columns.erase column
  | clear table => columns.filter fun column => column.containerPath ≠ table.path

/-- Makes changes one after the other, as long as they make sense. -/
def run : List DefaultChange → Finset ObjectId → Option (Finset ObjectId)
  | [], columns => some columns
  | change :: rest, columns =>
    if Admits columns change then run rest (effect columns change) else none

/-- Changes are made in two stages. -/
theorem run_append (first second : List DefaultChange) (columns : Finset ObjectId) :
    run (first ++ second) columns = (run first columns).bind (run second) := by
  induction first generalizing columns with
  | nil => rfl
  | cons change first ih =>
    rw [List.cons_append, run, run]
    split
    · exact ih _
    · rfl

/-- A change that makes sense keeps names apart. -/
theorem namesApart_effect (h : NamesApart columns) (hadmits : Admits columns change) :
    NamesApart (effect columns change) := by
  cases change with
  | add column =>
    intro a ha b hb hschema hname
    rw [effect, Finset.mem_insert] at ha hb
    rcases ha with rfl | ha <;> rcases hb with rfl | hb
    · rfl
    · exact absurd hname.symm (hadmits b hb hschema.symm)
    · exact absurd hname (hadmits a ha hschema)
    · exact h a ha b hb hschema hname
  | drop column => exact h.mono (Finset.erase_subset _ _)
  | clear table => exact h.mono (Finset.filter_subset _ _)

/-- Changes that are made one after the other keep names apart. -/
theorem namesApart_run {changes : List DefaultChange} {final : Finset ObjectId}
    (h : NamesApart columns) (hrun : run changes columns = some final) : NamesApart final := by
  induction changes generalizing columns with
  | nil => exact Option.some.inj hrun ▸ h
  | cons change changes ih =>
    rw [run] at hrun
    split at hrun
    · next hadmits => exact ih (namesApart_effect h hadmits) hrun
    · cases hrun

/-- When changes run through, names are apart all the while, and each change makes sense where it is
made. -/
theorem namesApart_and_admits_of_run {done rest : List DefaultChange} {change : DefaultChange}
    {final : Finset ObjectId} (h : NamesApart columns)
    (hrun : run (done ++ change :: rest) columns = some final) :
    ∃ state, run done columns = some state ∧ NamesApart state ∧ Admits state change := by
  rw [run_append, Option.bind_eq_some_iff] at hrun
  obtain ⟨state, hdone, hrest⟩ := hrun
  refine ⟨state, hdone, namesApart_run h hdone, ?_⟩
  rw [run] at hrest
  split at hrest
  · assumption
  · cases hrest

/-- Columns get default constraints if they have none yet and their names are apart from those of
the others. -/
theorem run_adds {added : List ObjectId} (hnodup : added.Nodup)
    (hfresh : ∀ column ∈ added, column ∉ columns)
    (hapart : NamesApart (columns ∪ added.toFinset)) :
    run (added.map add) columns = some (columns ∪ added.toFinset) := by
  induction added generalizing columns with
  | nil => simp [run]
  | cons column added ih =>
    obtain ⟨hnot, hnodup⟩ := List.nodup_cons.1 hnodup
    have hadmits : Admits columns (add column) := fun other hother hschema hname => by
      refine hfresh column List.mem_cons_self ?_
      rwa [← hapart other (Finset.mem_union_left _ hother) column
        (Finset.mem_union_right _ (by simp)) hschema hname]
    have hunion : insert column columns ∪ added.toFinset =
        columns ∪ (column :: added).toFinset := by
      rw [List.toFinset_cons, Finset.insert_union_comm]
    rw [List.map_cons, run, if_pos hadmits, effect, ih hnodup, hunion]
    · intro other hother hin
      rcases Finset.mem_insert.1 hin with rfl | hin
      · exact hnot hother
      · exact hfresh other (List.mem_cons_of_mem _ hother) hin
    · rwa [hunion]

end DefaultChange

/-! ## What statements do to default constraints -/

/-- What stands in front of a default: the name of its constraint. -/
def defaultLead (column : ObjectId) : String :=
  " CONSTRAINT " ++ quote (defaultName column) ++ " DEFAULT "

/-- How the statement that adds a default to a column begins. -/
def addDefaultLead (column : ObjectId) : String :=
  "ALTER TABLE " ++ owningTable column ++ " ADD CONSTRAINT " ++
    (quote (defaultName column) ++ " DEFAULT ")

/-- A statement writes a change down: it names a constraint that it adds, and does nothing else
where it drops one or a table. -/
def DefaultChange.WrittenIn (sql : String) : DefaultChange → Prop
  | add column => (defaultLead column).toList <:+: sql.toList
  | drop column => sql = dropDefault column
  | clear table => sql = "DROP TABLE " ++ qualified table

/-- The columns with a default that are created with an object: those of a table, or the object
itself. -/
def withDefault (s : Statement) (children : List Statement) : List ObjectId :=
  ((if s.kind = .table then children else [s]).filter (·.default?.isSome)).map (·.id)

/-- What one of the statements that create an object does to default constraints. The definition of
a table or column adds those of the columns in it. -/
def createdDefaults (s : Statement) (children : List Statement) (sql : String) :
    List DefaultChange :=
  if Opens ["CREATE TABLE ", "ALTER TABLE "] sql then (withDefault s children).map .add else []

/-- What one of the statements that drop an object does to default constraints. -/
def droppedDefaults (s : Statement) (sql : String) : List DefaultChange :=
  if s.kind = .table then [.clear s.id]
  else if s.kind = .column ∧ sql = dropDefault s.id then [.drop s.id]
  else []

/-- What one of the statements that alter an object does to default constraints. -/
def alteredDefaults (s : Statement) (sql : String) : List DefaultChange :=
  if s.kind ≠ .column then []
  else if sql = dropDefault s.id then [.drop s.id]
  else if (addDefaultLead s.id).toList <+: sql.toList then [.add s.id]
  else []

section
variable {s old : Statement} {statements : List String}

/-- The definition of a column with a default names the constraint. -/
theorem defaultLead_columnClause (column : ObjectId) {definition : ColumnDefinition}
    {default : String}
    (hdefault : definition.default = some default) :
    (defaultLead column).toList <:+: (columnClause column definition).toList := by
  obtain ⟨front, hfront⟩ : ∃ front, columnClause column definition =
      front ++ (defaultLead column ++ default) := ⟨_, by rw [columnClause, hdefault]; rfl⟩
  rw [hfront, String.toList_append, String.toList_append]
  exact List.infix_append' _ _ _

/-- The definition of a table contains its lines. -/
theorem infix_tableText (s : Statement) (table : TableDefinition) (lines : List String) :
    (Text.join ",\n" lines).toList <:+: (tableText s table lines).toList := by
  have hmiddle : ∀ a b c d e : String, b.toList <:+: (a ++ b ++ c ++ d ++ e).toList := by
    intro a b c d e
    simp only [String.toList_append, List.append_assoc]
    exact List.infix_append' _ _ _
  exact hmiddle _ _ _ _ _

/-- Only tables and columns are created with defaults. -/
theorem kind_of_withDefault {children : List Statement} (htyped : s.definition.kind = s.kind)
    (h : withDefault s children ≠ []) : s.kind = .table ∨ s.kind = .column := by
  by_contra hnot
  rw [not_or] at hnot
  refine h ?_
  simp only [withDefault, if_neg hnot.1, List.map_eq_nil_iff, List.filter_eq_nil_iff,
    List.mem_singleton, forall_eq]
  exact fun hsome => hnot.2 (Statement.kind_of_default? htyped hsome)

section
variable {snapshot : Snapshot} {detached : List ObjectId} (htyped : s.definition.kind = s.kind)
  (h : create s snapshot detached = .ok statements)
include htyped h

/-- Of the statements that create a table or column only the first one is a definition. -/
theorem exists_definition_of_create (hkind : s.kind = .table ∨ s.kind = .column) :
    ∃ definition rest, statements = definition :: rest ∧
      define? s (snapshot.children s.id) detached = .ok (some definition) ∧
      Opens ["CREATE TABLE ", "ALTER TABLE "] definition ∧
      ∀ sql ∈ rest, ¬ Opens ["CREATE TABLE ", "ALTER TABLE "] sql := by
  simp only [create] at h
  split at h
  · cases h
  obtain ⟨defined, hdefine, h⟩ := bind_eq_ok.1 h
  obtain ⟨definition, rfl, hopens⟩ : ∃ definition, defined = some definition ∧
      Opens ["CREATE TABLE ", "ALTER TABLE "] definition := by
    unfold define? at hdefine
    rcases hkind with hkind | hkind <;> rw [hkind] at htyped <;>
      cases hdefinition : s.definition <;> rw [hdefinition] at htyped hdefine <;> cases htyped <;>
      obtain rfl := Except.ok.inj hdefine
    case inl.table table =>
      refine ⟨_, rfl, ?_⟩
      unfold createTable tableText
      simp only [String.append_assoc]
      exact .append (by decide)
    case inr.column column =>
      refine ⟨_, rfl, ?_⟩
      simp only [String.append_assoc]
      exact .append (by decide)
  obtain rfl := Except.ok.inj h
  refine ⟨definition, _, rfl, hdefine, hopens, fun sql hsql => ?_⟩
  have hremark : Opens remarkLeads sql := by
    rcases List.mem_append.1 hsql with hsql | hsql
    · rcases List.mem_append.1 hsql with howner | hcomment
      · exact opens_ownerStatement? (Option.mem_toList.1 howner)
      · exact opens_commentStatement? (Option.mem_toList.1 hcomment)
    · unfold columnComments at hsql
      split at hsql
      · obtain ⟨column, -, hcomment⟩ := List.mem_filterMap.1 hsql
        exact opens_commentStatement? hcomment
      · cases hsql
  exact hremark.disjoint (by decide)

/-- The statements that create an object add the default constraints of the columns that are created
with it. -/
theorem flatMap_createdDefaults :
    statements.flatMap (createdDefaults s (snapshot.children s.id)) =
      (withDefault s (snapshot.children s.id)).map .add := by
  by_cases hnone : withDefault s (snapshot.children s.id) = []
  · simp [createdDefaults, hnone]
  obtain ⟨definition, rest, rfl, -, hopens, hrest⟩ :=
    exists_definition_of_create htyped h (kind_of_withDefault htyped hnone)
  rw [List.flatMap_cons, createdDefaults, if_pos hopens, List.flatMap_eq_nil_iff.2, List.append_nil]
  exact fun sql hsql => if_neg (hrest sql hsql)

/-- A statement that creates an object names the default constraints that it adds. -/
theorem writtenIn_of_createdDefaults {sql : String} {change : DefaultChange}
    (hsql : sql ∈ statements)
    (hchange : change ∈ createdDefaults s (snapshot.children s.id) sql) : change.WrittenIn sql := by
  unfold createdDefaults at hchange
  split at hchange
  · next hopens =>
    obtain ⟨_, hcolumn, rfl⟩ := List.mem_map.1 hchange
    obtain ⟨definition, rest, rfl, hdefine, -, hrest⟩ :=
      exists_definition_of_create htyped h (kind_of_withDefault htyped (List.ne_nil_of_mem hcolumn))
    obtain rfl := (List.mem_cons.1 hsql).resolve_right fun hin => hrest sql hin hopens
    obtain ⟨t, ht, rfl⟩ := List.mem_map.1 hcolumn
    obtain ⟨ht, hdefault⟩ := List.mem_filter.1 ht
    obtain ⟨default, hdefault⟩ := Option.isSome_iff_exists.1 hdefault
    obtain ⟨definition, hdefinition, hdefault⟩ := Statement.default?_eq_some.1 hdefault
    have hclause := defaultLead_columnClause t.id hdefault
    split at ht
    · next htable =>
      rw [htable] at htyped
      cases hs : s.definition <;> rw [hs] at htyped <;> cases htyped
      rw [define?, hs] at hdefine
      obtain rfl := Option.some.inj (Except.ok.inj hdefine)
      have hline : tableLine? detached t = some ("\t" ++ columnClause t.id definition) := by
        rw [tableLine?, hdefinition]
      have hin : "\t" ++ columnClause t.id definition ∈
          (snapshot.children s.id).filterMap (tableLine? detached) :=
        List.mem_filterMap.2 ⟨t, ht, hline⟩
      refine List.IsInfix.trans ?_ ((Text.infix_join hin).trans (infix_tableText s _ _))
      rw [String.toList_append]
      exact hclause.trans (List.suffix_append _ _).isInfix
    · obtain rfl := List.mem_singleton.1 ht
      rw [define?, hdefinition] at hdefine
      obtain rfl := Option.some.inj (Except.ok.inj hdefine)
      rw [DefaultChange.WrittenIn, String.toList_append]
      exact hclause.trans (List.suffix_append _ _).isInfix
  · cases hchange

end

/-- What is done to a table in one way does not begin like what is done to it in another way. -/
theorem not_prefix_alterTable {table first second a b : String} (h : Apart first second) :
    ¬ ("ALTER TABLE " ++ table ++ first ++ a).toList <+:
      ("ALTER TABLE " ++ table ++ second ++ b).toList := by
  intro hprefix
  simp only [String.toList_append, List.append_assoc, List.prefix_append_right_inj] at hprefix
  exact h.not_prefix (String.toList_append ▸ (List.prefix_append _ _).trans hprefix)

/-- What is done to a table in another way does not drop a default. -/
theorem ne_dropDefault {column : ObjectId} {lead : String} (rest : String)
    (h : Apart " DROP CONSTRAINT " lead) :
    "ALTER TABLE " ++ owningTable column ++ lead ++ rest ≠ dropDefault column := by
  intro heq
  have hprefix := List.prefix_refl (dropDefault column).toList
  nth_rewrite 2 [← heq] at hprefix
  exact not_prefix_alterTable h hprefix

/-- The statements that drop an object drop the default constraint of a column, or the table with
those of its columns. -/
theorem flatMap_droppedDefaults (htyped : s.definition.kind = s.kind)
    (h : drop s = .ok statements) :
    statements.flatMap (droppedDefaults s) =
      if s.kind = .table then [.clear s.id]
      else if s.default?.isSome then [.drop s.id] else [] := by
  unfold drop at h
  split at h
  · cases h
  cases hdefinition : s.definition <;> rw [hdefinition] at h htyped <;>
    obtain rfl := Except.ok.inj h <;> dsimp only [Definition.kind] at htyped
  case column column =>
    have hne : "ALTER TABLE " ++ owningTable s.id ++ " DROP COLUMN " ++ qualified s.id ≠
        dropDefault s.id := ne_dropDefault _ (by decide)
    rw [List.flatMap_append, List.flatMap_singleton]
    cases hdefault : column.default <;>
      simp [droppedDefaults, Statement.default?, hdefinition, ← htyped, hdefault, hne]
  all_goals simp [droppedDefaults, Statement.default?, hdefinition, ← htyped]

/-- A statement that drops an object writes down what becomes of default constraints. -/
theorem writtenIn_of_droppedDefaults (htyped : s.definition.kind = s.kind)
    (h : drop s = .ok statements) {sql : String} {change : DefaultChange} (hsql : sql ∈ statements)
    (hchange : change ∈ droppedDefaults s sql) : change.WrittenIn sql := by
  unfold droppedDefaults at hchange
  split at hchange
  · next htable =>
    obtain rfl := List.mem_singleton.1 hchange
    rw [htable] at htyped
    unfold drop at h
    split at h
    · cases h
    cases hdefinition : s.definition <;> rw [hdefinition] at htyped h <;> cases htyped
    obtain rfl := Except.ok.inj h
    exact List.mem_singleton.1 hsql
  split at hchange
  · next hdrop =>
    obtain rfl := List.mem_singleton.1 hchange
    exact hdrop.2
  · cases hchange

/-- A statement that alters an object writes down what becomes of default constraints. -/
theorem writtenIn_of_alteredDefaults {sql : String} {change : DefaultChange}
    (hchange : change ∈ alteredDefaults s sql) : change.WrittenIn sql := by
  unfold alteredDefaults at hchange
  split at hchange
  · cases hchange
  split at hchange
  · next hdrop =>
    obtain rfl := List.mem_singleton.1 hchange
    exact hdrop
  split at hchange
  · next hadd =>
    obtain rfl := List.mem_singleton.1 hchange
    refine List.IsInfix.trans ?_ hadd.isInfix
    have hlead : addDefaultLead s.id =
        "ALTER TABLE " ++ owningTable s.id ++ " ADD" ++ defaultLead s.id := by
      have hword : " ADD CONSTRAINT " = " ADD" ++ " CONSTRAINT " := by decide
      rw [addDefaultLead, hword]
      simp only [defaultLead, String.append_assoc]
    rw [hlead, String.toList_append]
    exact (List.suffix_append _ _).isInfix
  · cases hchange

/-- What begins with no alteration of a table does nothing to defaults. -/
theorem alteredDefaults_of_opens {verbs : List String} {sql : String} (h : Opens verbs sql)
    (hapart : ∀ verb ∈ verbs, Apart "ALTER TABLE " verb) : alteredDefaults s sql = [] := by
  have hnot := h.not_prefix hapart
  unfold alteredDefaults
  split
  · rfl
  split
  · next hdrop =>
    simp [hdrop, dropDefault] at hnot
  split
  · next hadd =>
    refine absurd (List.IsPrefix.trans ?_ hadd) hnot
    simp [addDefaultLead]
  · rfl

/-- The changes of a column replace its default constraint, if its default is another one. -/
theorem flatMap_columnChanges (hkind : s.kind = .column) (before after : ColumnDefinition) :
    ((columnChanges s.id before after).map (·.sql)).flatMap (alteredDefaults s) =
      if before.default = after.default then []
      else (if before.default.isSome then [.drop s.id] else []) ++
        if after.default.isSome then [.add s.id] else [] := by
  have hcolumn : ∀ rest, alteredDefaults s ("ALTER TABLE " ++ owningTable s.id ++
      " ALTER COLUMN " ++
      rest) = [] := by
    intro rest
    rw [alteredDefaults, if_neg (not_not.2 hkind), if_neg (ne_dropDefault rest (by decide)),
      addDefaultLead, if_neg (not_prefix_alterTable (by decide))]
  have hdrop : alteredDefaults s (dropDefault s.id) = [.drop s.id] := by
    rw [alteredDefaults, if_neg (not_not.2 hkind), if_pos rfl]
  have hadd : ∀ rest, alteredDefaults s (addDefaultLead s.id ++ rest) = [.add s.id] := by
    intro rest
    rw [alteredDefaults, if_neg (not_not.2 hkind), if_neg, if_pos]
    · rw [String.toList_append]
      exact List.prefix_append _ _
    · rw [addDefaultLead, String.append_assoc]
      exact ne_dropDefault _ (by decide)
  simp only [addDefaultLead, String.append_assoc] at hcolumn hadd
  simp only [columnChanges, String.append_assoc]
  rw [List.map_append, List.flatMap_append]
  have htype : ∀ {condition : Prop} [Decidable condition] {change : InPlaceChange},
      alteredDefaults s change.sql = [] →
        ((if condition then [change] else []).map (·.sql)).flatMap (alteredDefaults s) = [] := by
    intro condition _ change hnone
    split
    · simpa using hnone
    · rfl
  rw [htype (hcolumn _), List.nil_append]
  split
  · rfl
  · rw [List.map_append, List.flatMap_append]
    congr 1
    · split
      · simpa using hdrop
      · rfl
    · cases hdefault : after.default with
      | none => rfl
      | some default => simpa [String.append_assoc] using hadd _

/-- The statements that alter a column replace its default constraint, if its default is another
one. -/
theorem flatMap_alteredDefaults {alteration : Alteration}
    (htypedOld : old.definition.kind = old.kind)
    (htyped : s.definition.kind = s.kind) (hkind : old.kind = s.kind)
    (h : alter old s = .ok alteration) :
    (Decision.ofAlteration alteration).statements.flatMap (alteredDefaults s) =
      if old.default? = s.default? then []
      else (if old.default?.isSome then [.drop s.id] else []) ++
        if s.default?.isSome then [.add s.id] else [] := by
  by_cases hcolumn : s.kind = .column
  · rw [hkind, hcolumn] at htypedOld
    rw [hcolumn] at htyped
    cases hold : old.definition <;> rw [hold] at htypedOld <;> cases htypedOld
    cases hnew : s.definition <;> rw [hnew] at htyped <;> cases htyped
    next before after =>
    obtain ⟨remarks, hremarks, rfl⟩ := alter_eq_ok h
    simp only [definitionChanges?, hold, hnew]
    rw [statements_ofChanges?, Option.map_some, Option.getD_some, List.map_append,
      List.flatMap_append, flatMap_columnChanges hcolumn, List.flatMap_eq_nil_iff.2,
      List.append_nil,
      Statement.default?, Statement.default?, hold, hnew]
    intro sql hsql
    simp only [List.map_map, Function.comp_def, List.map_id'] at hsql
    exact alteredDefaults_of_opens (hremarks sql hsql) (by decide)
  · have hnone : ∀ {t : Statement}, t.definition.kind = t.kind → t.kind = s.kind →
        t.default? = none := fun htyped hkind =>
      Option.not_isSome_iff_eq_none.1 fun hsome =>
        hcolumn (hkind.symm.trans (Statement.kind_of_default? htyped hsome))
    rw [hnone htyped rfl, hnone htypedOld hkind, if_pos rfl, List.flatMap_eq_nil_iff]
    exact fun sql _ => if_pos hcolumn

/-- A column about which nothing is to be done keeps its default. -/
theorem default?_eq_of_nothing {id : ObjectId} {decision : Decision}
    (htypedOld : old.definition.kind = old.kind) (htyped : s.definition.kind = s.kind)
    (hkind : old.kind = s.kind)
    (h : Dialect.msSql.decideOn id (some old) (some s) = .ok decision)
    (hnothing : decision.treatment = .nothing) : old.default? = s.default? := by
  simp only [Dialect.decideOn] at h
  split at h
  · cases h
  split at h
  · cases h
  split at h
  · next hsame =>
    simp only [Statement.sameContent, Bool.and_eq_true, beq_iff_eq] at hsame
    rw [Statement.default?, Statement.default?, hsame.1.1]
  · obtain ⟨alteration, halter, rfl⟩ := map_eq_ok.1 h
    have hnone : (Decision.ofAlteration alteration).statements = [] := by
      obtain ⟨changes, rfl⟩ := Dialect.exists_changes_of_alter halter
      by_contra hlists
      have halters := (Decision.lists_iff_alters changes).1 hlists
      rw [hnothing] at halters
      cases halters
    have hchanges := flatMap_alteredDefaults htypedOld htyped hkind halter
    rw [hnone] at hchanges
    by_contra hne
    rw [if_neg hne] at hchanges
    cases hbefore : old.default? <;> cases hafter : s.default? <;>
      simp [hbefore, hafter] at hne hchanges

end

end Ddl.MsSql

end SchemaMigration
