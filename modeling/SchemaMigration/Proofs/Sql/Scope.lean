import Mathlib.Logic.Basic
import Mathlib.Tactic.ByContra
import SchemaMigration.Proofs.Sql.Places

/-!
# How far names bound by `WITH` reach

A query binds names for all that stands in it. The references of a text know one set of bound names
for the whole text, which only grows: a table is passed over if a query around it binds its name,
and also if a query that lies before it does (`Place.Past`). The tables that `*` stands for are
taken as they are written. `References.bindings_outlast_queries` says which tables are found,
whatever reader takes the text apart, and for which names this agrees with the scopes of the queries
(`InScope`): for all that are neither `Hidden` nor `Intruding`.
-/

namespace SchemaMigration.Sql

/-! ## Tables -/

/-- An element, with some property of what comes before it, is the head of a list or stands behind
it. -/
theorem exists_cons_eq_append_cons {α : Type} {a b : α} {l : List α} {P : List α → Prop} :
    (∃ before after, a :: l = before ++ b :: after ∧ P before) ↔
      a = b ∧ P [] ∨ ∃ before after, l = before ++ b :: after ∧ P (a :: before) := by
  constructor
  · rintro ⟨before, after, hsplit, hP⟩
    cases before with
    | nil =>
      obtain ⟨rfl, -⟩ := List.cons.inj hsplit
      exact .inl ⟨rfl, hP⟩
    | cons c before =>
      obtain ⟨rfl, rfl⟩ := List.cons.inj hsplit
      exact .inr ⟨before, after, rfl, hP⟩
  · rintro (⟨rfl, hP⟩ | ⟨before, after, rfl, hP⟩)
    · exact ⟨[], l, rfl, hP⟩
    · exact ⟨a :: before, after, rfl, hP⟩

/-- A table among some mentions is found where its name, if it has just one part, was bound neither
at first nor by what was mentioned before. -/
theorem mem_unboundRelations_iff {path : List String} : ∀ {bound : List String} {ms : List Mention},
    path ∈ unboundRelations bound ms ↔
      ∃ before after, ms = before ++ .relation path :: after ∧ ∀ name, path = [name] →
        Text.lowerAscii name ∉ bound ∧ .binding (Text.lowerAscii name) ∉ before
  | bound, [] => by simp [unboundRelations]
  | bound, .binding name :: ms => by
    rw [unboundRelations, mem_unboundRelations_iff, exists_cons_eq_append_cons]
    simp only [reduceCtorEq, false_and, false_or, List.mem_cons, Mention.binding.injEq, not_or]
    simp only [and_assoc, and_left_comm]
  | bound, .relation other :: ms => by
    rw [exists_cons_eq_append_cons]
    simp only [Mention.relation.injEq, List.mem_cons, reduceCtorEq, false_or]
    rw [← mem_unboundRelations_iff]
    match other with
    | [name] =>
      rw [unboundRelations]
      split
      · next hbound =>
        have hhead : ¬([name] = path ∧ ∀ name, path = [name] → Text.lowerAscii name ∉ bound ∧
            .binding (Text.lowerAscii name) ∉ ([] : List Mention)) := by
          rintro ⟨rfl, hfree⟩
          exact (hfree name rfl).1 (by simpa using hbound)
        rw [iff_false_intro hhead, false_or]
      · next hbound =>
        rw [List.mem_cons, eq_comm]
        refine or_congr_left (iff_self_and.2 ?_)
        rintro rfl _ hname
        obtain ⟨rfl, -⟩ := List.cons.inj hname
        exact ⟨by simpa using hbound, List.not_mem_nil⟩
    | [] | _ :: _ :: _ =>
      rw [unboundRelations, List.mem_cons, eq_comm]
      · exact or_congr_left (iff_self_and.2 (by rintro rfl _ hname; cases hname))
      · rintro _ ⟨⟩
  | bound, .wildcard _ :: ms | bound, .column _ :: ms | bound, .function _ :: ms => by
    rw [exists_cons_eq_append_cons]
    simp only [reduceCtorEq, false_and, false_or, List.mem_cons]
    rw [← mem_unboundRelations_iff, unboundRelations]
    all_goals rintro _ ⟨⟩

namespace Place

/-- A query around the place binds the name. -/
def Within (p : Place) (name : String) : Prop := ∃ n ∈ p.around, Text.lowerAscii name ∈ n.bound

/-- A query that was passed on the way to the place binds the name. -/
def Past (p : Place) (name : String) : Prop :=
  ∃ n ∈ p.passed, ∃ q, n.Has q ∧ Text.lowerAscii name ∈ q.node.bound

variable {p : Place} {name : String}

theorem before_binding_iff :
    p.Before (.binding (Text.lowerAscii name)) ↔ p.Within name ∨ p.Past name := by
  simp only [Before, Within, Past, Node.mem_mentions_iff, Node.binding_mem_ownMentions]

end Place

namespace Node

variable {n part : Node} {p : Place} {path : List String}

/-- A node that names a table mentions just the table itself. -/
theorem ownMentions_of_table? (h : n.table? = some path) : n.ownMentions = [.relation path] := by
  cases n with
  | statement s => cases s <;> simp_all [table?, ownMentions]
  | source s => cases s <;> simp_all [table?, ownMentions]
  | _ => simp [table?] at h

/-- A table is found in a tree where it stands at a place that no query around it and none passed
on the way binds its name at. -/
theorem mem_unboundRelations_mentions (n : Node) :
    path ∈ unboundRelations [] n.mentions ↔
      ∃ p, n.Has p ∧ p.node.table? = some path ∧
        ∀ name, path = [name] → ¬p.Within name ∧ ¬p.Past name := by
  simp only [mem_unboundRelations_iff, List.not_mem_nil, not_false_eq_true, true_and]
  constructor
  · rintro ⟨before, after, hsplit, hfree⟩
    obtain ⟨p, earlier, rest, hp, hown, hbefore⟩ := n.exists_place hsplit
    refine ⟨p, hp, relation_mem_ownMentions.1 (by simp [hown]), fun name hname => ?_⟩
    rw [← not_or, ← Place.before_binding_iff]
    exact fun hbound => hfree name hname ((hbefore _).2 (.inl hbound))
  · rintro ⟨p, hp, htable, hfree⟩
    obtain ⟨before, after, hsplit, hbefore⟩ := hp.split
    obtain ⟨later, hnode⟩ : ∃ later, p.node.mentions = .relation path :: later :=
      ⟨_, by rw [mentions_eq, ownMentions_of_table? htable]; rfl⟩
    refine ⟨before, later ++ after, by rw [hsplit, hnode]; simp, fun name hname hbound => ?_⟩
    have hbound := Place.before_binding_iff.1 ((hbefore _).1 hbound)
    exact hbound.elim (hfree name hname).1 (hfree name hname).2

/-! ## The tables that `*` stands for -/

/-- The tables that the results of a node stand for, if it is a `SELECT`. -/
def starred : Node → List (List String)
  | select s => s.wildcards
  | _ => []

/-- The tables that the results of a `SELECT` stand for, or those of the `SELECT`s that are combined
in a body. -/
def results : Node → List (List String)
  | body b => b.wildcards
  | n => n.starred

/-- The results of a node, or of the query that it is, are its own and those of its parts. -/
theorem mem_results_or_ownMentions_iff : path ∈ n.results ∨ .wildcard path ∈ n.ownMentions ↔
    path ∈ n.starred ∨ ∃ part ∈ n.parts, path ∈ part.results := by
  fun_cases parts n <;>
    simp [results, starred, ownMentions, or_and_right, exists_or, Body.wildcards]

/-- All that `*` stands for in a tree are the results of the `SELECT`s that stand in it. -/
theorem mem_results_or_mentions_iff (n : Node) : path ∈ n.results ∨ .wildcard path ∈ n.mentions ↔
    ∃ p, n.Has p ∧ path ∈ p.node.starred := by
  induction n using induct with
  | h n ih =>
    rw [mentions_eq, List.mem_append, List.mem_flatMap, ← or_assoc, mem_results_or_ownMentions_iff,
      or_assoc, exists_has_iff (P := (path ∈ ·.starred)), ← exists_or]
    simp only [← and_or_left]
    exact or_congr_right (exists_congr fun part => and_congr_right (ih part))

end Node

/-! ## References -/

theorem mem_distinct {α : Type} [BEq α] [LawfulBEq α] {x : α} {xs : List α} :
    x ∈ distinct xs ↔ x ∈ xs := List.mem_eraseDups

namespace References

section
variable {read : Reader} {dialect : Dialect} {text : String} {statements : List Statement}
  {path : List String} (htext : read dialect text = some statements)
include htext

/-- A text refers to the tables that stand at places where their names are not bound. -/
theorem mem_relations_iff : path ∈ (ofText read dialect text).relations ↔
    ∃ p, (Node.text statements).Has p ∧ p.node.table? = some path ∧
      ∀ name, path = [name] → ¬p.Within name ∧ ¬p.Past name := by
  rw [ofText, htext, ← Node.mem_unboundRelations_mentions]
  exact mem_distinct

/-- A text refers to all columns of the tables that the results of its `SELECT`s stand for. -/
theorem mem_wildcards_iff : path ∈ (ofText read dialect text).wildcards ↔
    ∃ p, (Node.text statements).Has p ∧ path ∈ p.node.starred := by
  rw [ofText, htext, ← Node.mem_results_or_mentions_iff]
  refine mem_distinct.trans ⟨fun h => ?_, fun h => ?_⟩
  · obtain ⟨m, hm, hpath⟩ := List.mem_filterMap.1 h
    cases m with
    | wildcard other =>
      obtain rfl := Option.some.inj hpath
      exact .inr hm
    | _ => cases hpath
  · obtain hnone | hm := h
    · cases hnone
    · exact List.mem_filterMap.2 ⟨_, hm, rfl⟩

end

variable (statements : List Statement) (references : References) (name : String)

/-- The name stands for a table at some place that is in the scope of no query that binds it. -/
def Read : Prop :=
  ∃ p, (Node.text statements).Has p ∧ p.node.table? = some [name] ∧ ¬p.Within name

/-- Some `*` stands for the table of the name in the scope of no query that binds the name. -/
def ReadWhole : Prop :=
  ∃ p, (Node.text statements).Has p ∧ [name] ∈ p.node.starred ∧ ¬p.Within name

/-- The references have the name for a table, and for one selected as a whole, just if it is one by
the scopes of the queries. -/
structure InScope : Prop where
  relation : [name] ∈ references.relations ↔ Read statements name
  wildcard : [name] ∈ references.wildcards ↔ ReadWhole statements name

/-- The name stands for a table, but wherever it does a query that was passed binds it. -/
def Hidden : Prop :=
  Read statements name ∧ ∀ p, (Node.text statements).Has p → p.node.table? = some [name] →
    ¬p.Within name → p.Past name

/-- Some `*` stands for the name, but wherever one does the name is bound by a query around it. -/
def Intruding : Prop :=
  (∃ p, (Node.text statements).Has p ∧ [name] ∈ p.node.starred) ∧
    ∀ p, (Node.text statements).Has p → [name] ∈ p.node.starred → p.Within name

variable {statements references name}

section
variable {read : Reader} {dialect : Dialect} {text : String}
  (htext : read dialect text = some statements)
include htext

/-- A table is found by the scopes of the queries if and only if it is not hidden. -/
theorem read_iff_not_hidden :
    ([name] ∈ (ofText read dialect text).relations ↔ Read statements name) ↔
      ¬Hidden statements name := by
  rw [mem_relations_iff htext]
  constructor
  · rintro hiff ⟨hread, hpast⟩
    obtain ⟨p, hp, htable, hfree⟩ := hiff.2 hread
    exact (hfree name rfl).2 (hpast p hp htable (hfree name rfl).1)
  · intro hseen
    constructor
    · rintro ⟨p, hp, htable, hfree⟩
      exact ⟨p, hp, htable, (hfree name rfl).1⟩
    · intro hread
      by_contra hnone
      refine hseen ⟨hread, fun p hp htable hfree => ?_⟩
      by_contra hpast
      refine hnone ⟨p, hp, htable, ?_⟩
      rintro _ ⟨⟩
      exact ⟨hfree, hpast⟩

/-- A table that `*` stands for is found by the scopes of the queries if and only if it is not
intruding. -/
theorem readWhole_iff_not_intruding :
    ([name] ∈ (ofText read dialect text).wildcards ↔ ReadWhole statements name) ↔
      ¬Intruding statements name := by
  rw [mem_wildcards_iff htext]
  constructor
  · rintro hiff ⟨hstar, hwithin⟩
    obtain ⟨p, hp, hstar, hfree⟩ := hiff.1 hstar
    exact hfree (hwithin p hp hstar)
  · intro hright
    constructor
    · intro hstar
      by_contra hnone
      refine hright ⟨hstar, fun p hp hstar => ?_⟩
      by_contra hfree
      exact hnone ⟨p, hp, hstar, hfree⟩
    · rintro ⟨p, hp, hstar, -⟩
      exact ⟨p, hp, hstar⟩

end

/-- **Bound names outlast their queries.** A text that some reader reads refers to a table where it
names one at a place at which the name is bound neither by a query around it nor by one passed on
the way to it, in the same statement or in an earlier one; and it refers to all columns of a table
where the results of a `SELECT` stand for it, whether or not the name is bound there. So a name is
found as the scopes of the queries say if and only if it is neither hidden nor intruding. -/
theorem bindings_outlast_queries {read : Reader} {dialect : Dialect} {text : String}
    {statements : List Statement} (htext : read dialect text = some statements) :
    (∀ path, path ∈ (ofText read dialect text).relations ↔
      ∃ p, (Node.text statements).Has p ∧ p.node.table? = some path ∧
        ∀ name, path = [name] → ¬p.Within name ∧ ¬p.Past name) ∧
    (∀ path, path ∈ (ofText read dialect text).wildcards ↔
      ∃ p, (Node.text statements).Has p ∧ path ∈ p.node.starred) ∧
    ∀ name, InScope statements (ofText read dialect text) name ↔
      ¬Hidden statements name ∧ ¬Intruding statements name := by
  refine ⟨fun path => mem_relations_iff htext, fun path => mem_wildcards_iff htext,
    fun name => ?_⟩
  constructor
  · rintro ⟨hrelation, hwildcard⟩
    exact ⟨(read_iff_not_hidden htext).1 hrelation,
      (readWhole_iff_not_intruding htext).1 hwildcard⟩
  · rintro ⟨hseen, hright⟩
    exact ⟨(read_iff_not_hidden htext).2 hseen, (readWhole_iff_not_intruding htext).2 hright⟩

end References

namespace TwoStatements

open Node

/-- A statement that gives a name to a query and reads it whole, and one that reads the table of
that name. -/
def text : String := "WITH t AS (SELECT 1) SELECT * FROM t; SELECT 2 FROM t"

/-- The query that binds the name. -/
def binding : Query :=
  .mk [.mk "t" (.mk [] (.select (.mk [] [.value .leaf] [] [])) [])]
    (.select (.mk [] [.all []] [.mk (.named ["t"]) []] [])) []

/-- The query that reads the table. -/
def reading : Query :=
  .mk [] (.select (.mk [] [.value .leaf] [.mk (.named ["t"]) []] [])) []

/-- The statements of the text. -/
def statements : List Statement := [.query binding, .query reading]

/-- The tokens of the text. -/
def tokens : List Token :=
  [.word "WITH" "WITH" none, .word "t" "T" none, .word "AS" "AS" none, .symbol "(",
    .word "SELECT" "SELECT" none, .number "1" false, .symbol ")", .word "SELECT" "SELECT" none,
    .symbol "*", .word "FROM" "FROM" none, .word "t" "T" none, .symbol ";",
    .word "SELECT" "SELECT" none, .number "2" false, .word "FROM" "FROM" none, .word "t" "T" none]

theorem read_text : read .postgres text = some statements := by
  have htokens : tokenize .postgres text = some tokens := by decide +kernel
  rw [read, htokens, Option.bind_some]
  rfl

/-- A `*` stands for the name. -/
theorem bound_name_read_whole :
    read .postgres text = some statements ∧
      ∃ p, (Node.text statements).Has p ∧ ["t"] ∈ p.node.starred :=
  ⟨read_text,
    ((References.bindings_outlast_queries read_text).2.1 ["t"]).1 (by decide +kernel)⟩

/-- The name stands for the table in the second statement, which the text does not refer to; a `*`
stands for the name just where it is bound, but the text refers to all columns of the table. -/
theorem table_hidden_and_columns_read :
    (References.Read statements "t" ∧ ["t"] ∉ (References.ofText read .postgres text).relations) ∧
      ¬References.ReadWhole statements "t" ∧
        ["t"] ∈ (References.ofText read .postgres text).wildcards := by
  refine ⟨⟨?_, by decide +kernel⟩, ?_, by decide +kernel⟩
  · refine ⟨_, @Has.inside _ _ [statement (.query binding)] [] _ rfl <|
      @Has.inside _ _ [] [] _ rfl <| @Has.inside _ _ [] [] _ rfl <| @Has.inside _ _ [] [] _ rfl <|
      @Has.inside _ _ [item (.value .leaf)] [] _ rfl <| @Has.inside _ _ [] [] _ rfl <| .here _,
      rfl, ?_⟩
    simp [Place.Within, bound, reading]
  · -- In the first statement all below the query stands in its scope, and in the second one no
    -- `*` stands for anything.
    rintro ⟨p, hp, hstar, hfree⟩
    cases hp with
    | here => cases hstar
    | @inside _ part _ _ p hparts hp =>
      have hpart : part = statement (.query binding) ∨ part = statement (.query reading) := by
        have hmem : part ∈ (Node.text statements).parts := by simp [hparts]
        simpa [parts, statements] using hmem
      obtain rfl | rfl := hpart
      · cases hp with
        | here => cases hstar
        | @inside _ part _ _ p hparts hp =>
          obtain rfl : part = query binding := by
            have hmem : part ∈ (statement (.query binding)).parts := by simp [hparts]
            simpa [parts] using hmem
          cases hp with
          | here => cases hstar
          | inside => exact hfree ⟨query binding, by simp, by decide +kernel⟩
      · have hnone := (mem_results_or_mentions_iff _).2 ⟨p, hp, hstar⟩
        revert hnone
        decide +kernel

end TwoStatements

end SchemaMigration.Sql
