import SchemaMigration.Proofs.Ddl.Alteration
import SchemaMigration.Proofs.Success

/-!
# Verbs of statements

Every statement begins with a verb (`Ddl.Opens`): definitions with `CREATE`, `ALTER` or `DROP`,
comments with `COMMENT` or, as refreshes, with `EXEC`. So no statement is blank. An object other
than the database is created and dropped by at least one statement
(`Dialect.exists_opens_of_create`, `Dialect.exists_opens_of_drop`), and an alteration that does
something consists of statements (`Dialect.opens_of_alter`).
-/

namespace SchemaMigration

namespace Ddl

/-- A statement begins with one of some verbs. -/
def Opens (verbs : List String) (sql : String) : Prop := ∃ verb ∈ verbs, verb.toList <+: sql.toList

/-- Whether a statement begins with one of some verbs can be computed. -/
instance (verbs : List String) (sql : String) : Decidable (Opens verbs sql) :=
  inferInstanceAs (Decidable (∃ verb ∈ verbs, verb.toList <+: sql.toList))

/-- The verbs of statements that define something. -/
def definitionVerbs : List String := ["CREATE", "ALTER", "DROP"]

/-- The verbs of all statements. -/
def verbs : List String := definitionVerbs ++ ["COMMENT", "EXEC"]

section
variable {sql lead rest : String}

/-- What comes behind the beginning of a statement does not matter. -/
theorem Opens.append {verbs : List String} (h : Opens verbs lead) : Opens verbs (lead ++ rest) := by
  obtain ⟨verb, hverb, hprefix⟩ := h
  rw [Opens]
  exact ⟨verb, hverb, String.toList_append ▸ hprefix.trans (List.prefix_append _ _)⟩

/-- What begins with one of some verbs begins with one of more verbs. -/
theorem Opens.mono {few many : List String} (hsub : few ⊆ many) (h : Opens few sql) :
    Opens many sql :=
  h.imp fun _ hverb => ⟨hsub hverb.1, hverb.2⟩

/-- What begins in one of some ways begins with a verb if they all do. -/
theorem Opens.coarsen {fine coarse : List String} (h : Opens fine sql)
    (hcoarse : ∀ verb ∈ fine, Opens coarse verb) : Opens coarse sql := by
  obtain ⟨lead, hlead, hprefix⟩ := h
  obtain ⟨verb, hverb, hshort⟩ := hcoarse lead hlead
  exact ⟨verb, hverb, hshort.trans hprefix⟩

/-- What begins with a verb does not begin otherwise. -/
theorem Opens.not_prefix {verbs : List String} (h : Opens verbs sql)
    (hapart : ∀ verb ∈ verbs, Apart lead verb) : ¬ lead.toList <+: sql.toList := by
  obtain ⟨verb, hverb, hprefix⟩ := h
  exact fun hlead => (List.prefix_or_prefix_of_prefix hlead hprefix).elim (hapart verb hverb).1
    (hapart verb hverb).2

/-- What begins with one of some verbs does not begin with one of others. -/
theorem Opens.disjoint {verbs others : List String} (h : Opens verbs sql)
    (hapart : ∀ other ∈ others, ∀ verb ∈ verbs, Apart other verb) : ¬ Opens others sql :=
  fun ⟨other, hother, hprefix⟩ => h.not_prefix (hapart other hother) hprefix

/-- What defines something is a statement. -/
theorem Opens.verb (h : Opens definitionVerbs sql) : Opens verbs sql :=
  h.mono (List.subset_append_left _ _)

end

/-- The statements of changes that are made one by one begin as each of them does. -/
theorem opens_of_mem_map {α : Type} {verbs : List String} {parts : List α} {f : α → InPlaceChange}
    {change : InPlaceChange} (hin : change ∈ parts.map f)
    (h : ∀ part, Opens verbs (f part).sql) : Opens verbs change.sql := by
  obtain ⟨part, -, rfl⟩ := List.mem_map.1 hin
  exact h part

end Ddl

/-! ## PostgreSQL -/

namespace Ddl.Postgres

variable {s : Statement} {sql : String}

/-- The definition of a user type begins with a verb. -/
theorem opens_createType (type : TypeDefinition) : Opens definitionVerbs (createType s type) := by
  unfold createType
  dsimp only
  split <;> simp only [String.append_assoc] <;> exact .append (by decide)

/-- Definitions begin with a verb. -/
theorem opens_define? {children : List Statement} {detached : List ObjectId}
    (h : define? s children detached = some sql) : Opens definitionVerbs sql := by
  unfold define? at h
  cases hdefinition : s.definition <;> rw [hdefinition] at h <;> dsimp only at h
  case database => cases h
  all_goals obtain rfl := Option.some.inj h
  case type type => exact opens_createType type
  all_goals
    first
    | unfold createTable tableText
    | unfold createIndex
    | unfold createView
    | unfold createRoutine
    | unfold createTrigger
    | unfold createSequence
    | unfold createPolicy
    | skip
    try simp only [String.append_assoc]
    exact .append (by decide)

/-- Only the database has no definition. -/
theorem exists_define? (h : s.definition ≠ .database) (children : List Statement)
    (detached : List ObjectId) : ∃ sql, define? s children detached = some sql := by
  unfold define?
  cases hdefinition : s.definition <;> first | exact ⟨_, rfl⟩ | exact absurd hdefinition h

/-- Statements that set an owner begin with a verb. -/
theorem opens_ownerStatement? (h : ownerStatement? s = some sql) : Opens ["ALTER"] sql := by
  simp only [ownerStatement?, Option.bind_eq_bind, Option.bind_eq_some_iff] at h
  obtain ⟨owner, -, target, -, h⟩ := h
  split at h
  · obtain rfl := Option.some.inj h
    simp only [String.append_assoc]
    exact .append (by decide)
  · cases h

/-- Statements about a comment begin with a verb. -/
theorem opens_commentStatement? (h : commentStatement? s = some sql) : Opens ["COMMENT"] sql := by
  obtain ⟨target, -, rfl⟩ := Option.map_eq_some_iff.1 h
  simp only [String.append_assoc]
  exact .append (by decide)

/-- Statements that drop an object begin with a verb. -/
theorem opens_drop (h : sql ∈ drop s) : Opens definitionVerbs sql := by
  unfold drop at h
  split at h
  · rw [List.mem_singleton.1 h]
    simp only [String.append_assoc]
    exact .append (by decide)
  · rw [List.mem_singleton.1 h]
    simp only [String.append_assoc]
    exact .append (by decide)
  · rw [Option.mem_toList, Option.map_eq_some_iff] at h
    obtain ⟨target, -, rfl⟩ := h
    exact .append (by decide)

/-- Only the database is not dropped. -/
theorem drop_ne_nil (h : s.definition ≠ .database) : drop s ≠ [] := by
  unfold drop target?
  cases hdefinition : s.definition <;> first | exact absurd hdefinition h | simp

/-- A statement of several clauses begins as it does without them. -/
theorem opens_oneStatement {lead : String} {clauses : List String} {change : InPlaceChange}
    (h : change ∈ oneStatement lead clauses) (hlead : Opens definitionVerbs lead) :
    Opens definitionVerbs change.sql := by
  unfold oneStatement at h
  split at h
  · cases h
  · rw [List.mem_singleton.1 h]
    exact hlead.append

/-- Statements that change a definition begin with a verb. -/
theorem opens_definitionChanges? {old : Definition} {changes : List InPlaceChange}
    (h : definitionChanges? old s = some changes) {change : InPlaceChange}
    (hchange : change ∈ changes) : Opens definitionVerbs change.sql := by
  unfold definitionChanges? at h
  split at h
  case h_1 =>
    obtain rfl := Option.some.inj h
    cases hchange
  case h_2 | h_10 =>
    obtain ⟨clauses, -, rfl⟩ := Option.map_eq_some_iff.1 h
    refine opens_oneStatement hchange ?_
    simp only [String.append_assoc]
    exact .append (by decide)
  case h_3 | h_5 =>
    obtain ⟨parts, -, rfl⟩ := Option.map_eq_some_iff.1 h
    refine opens_of_mem_map hchange fun part => ?_
    simp only [String.append_assoc]
    exact .append (by decide)
  case h_4 =>
    obtain rfl := Option.some.inj h
    refine opens_of_mem_map hchange fun part => ?_
    simp only [String.append_assoc]
    exact .append (by decide)
  case h_6 | h_7 =>
    split at h
    · cases h
    · split at h <;> obtain rfl := Option.some.inj h
      · rw [List.mem_singleton.1 hchange]
        unfold createRoutine
        simp only [String.append_assoc]
        exact .append (by decide)
      · cases hchange
  case h_8 =>
    obtain rfl := Option.some.inj h
    refine opens_oneStatement hchange ?_
    simp only [String.append_assoc]
    exact .append (by decide)
  case h_9 =>
    split at h
    · obtain ⟨additions, -, rfl⟩ := Option.map_eq_some_iff.1 h
      refine opens_of_mem_map hchange fun part => ?_
      simp only [String.append_assoc]
      exact .append (by decide)
    · split at h
      · obtain rfl := Option.some.inj h
        cases hchange
      · cases h
  case h_15 => cases h
  all_goals
    split at h
    · obtain rfl := Option.some.inj h
      cases hchange
    · cases h

/-- The statements about owner and comment that go with an alteration begin with their verbs. -/
theorem opens_of_mem_remarkStatements {old : Statement} (h : sql ∈ remarkStatements old s) :
    Opens ["ALTER", "COMMENT"] sql := by
  rcases List.mem_append.1 h with howner | hcomment
  · split at howner
    · exact (opens_ownerStatement? (Option.mem_toList.1 howner)).mono (by decide)
    · cases howner
  · split at hcomment
    · exact (opens_commentStatement? (Option.mem_toList.1 hcomment)).mono (by decide)
    · cases hcomment

/-- The statements of an alteration begin with a verb. -/
theorem opens_of_alter {old : Statement}
    (h : sql ∈ (Decision.ofAlteration (alter old s)).statements) : Opens verbs sql := by
  obtain ⟨_, hfound, change, hchange, rfl⟩ := mem_statements_ofChanges?.1 h
  obtain ⟨changes, hchanges, rfl⟩ := Option.map_eq_some_iff.1 hfound
  rcases List.mem_append.1 hchange with hin | hin
  · exact (opens_definitionChanges? hchanges hin).verb
  · obtain ⟨text, htext, rfl⟩ := List.mem_map.1 hin
    exact (opens_of_mem_remarkStatements htext).mono (by decide)

end Ddl.Postgres

/-! ## MS SQL -/

namespace Ddl.MsSql

variable {s : Statement} {sql : String}

/-- Definitions begin with a verb. -/
theorem opens_define? {children : List Statement} {detached : List ObjectId}
    (h : define? s children detached = .ok (some sql)) : Opens definitionVerbs sql := by
  unfold define? at h
  cases hdefinition : s.definition <;> rw [hdefinition] at h <;> dsimp only at h
  case database | policy => cases h
  case type type =>
    obtain ⟨text, htext, hsome⟩ := map_eq_ok.1 h
    obtain rfl := Option.some.inj hsome
    unfold createType at htext
    split at htext
    case h_3 => cases htext
    all_goals
      obtain rfl := Except.ok.inj htext
      simp only [String.append_assoc]
      exact .append (by decide)
  case view | function | procedure | trigger =>
    obtain ⟨text, -, rfl⟩ := Option.map_eq_some_iff.1 (Except.ok.inj h)
    exact .append (by decide)
  all_goals
    obtain rfl := Option.some.inj (Except.ok.inj h)
    first
    | unfold createTable tableText
    | unfold createIndex
    | skip
    try simp only [String.append_assoc]
    exact .append (by decide)

/-- Only the database has no definition. -/
theorem define?_ne_none (h : s.definition ≠ .database) (children : List Statement)
    (detached : List ObjectId) : define? s children detached ≠ .ok none := by
  unfold define?
  cases hdefinition : s.definition
  case database => exact absurd hdefinition h
  case type type =>
    intro hnone
    obtain ⟨_, -, hsome⟩ := map_eq_ok.1 hnone
    cases hsome
  all_goals simp [unsupported, module?, hdefinition]

/-- How statements about owners and comments begin. -/
def remarkLeads : List String :=
  ["ALTER AUTHORIZATION ON ", "EXEC sys.sp_addextendedproperty ",
    "EXEC sys.sp_updateextendedproperty ", "EXEC sys.sp_dropextendedproperty "]

/-- Statements that set an owner are told by how they begin. -/
theorem opens_ownerStatement? (h : ownerStatement? s = some sql) : Opens remarkLeads sql := by
  simp only [ownerStatement?, Option.bind_eq_bind, Option.bind_eq_some_iff] at h
  obtain ⟨owner, -, securable, -, h⟩ := h
  obtain rfl := Option.some.inj h
  simp only [String.append_assoc]
  exact .append (by decide)

/-- Statements about a comment are told by how they begin. -/
theorem opens_commentStatement? {before : Option String}
    (h : commentStatement? before s = some sql) : Opens remarkLeads sql := by
  simp only [commentStatement?, Option.bind_eq_bind, Option.bind_eq_some_iff] at h
  obtain ⟨levels, -, h⟩ := h
  split at h
  case h_4 => cases h
  all_goals
    obtain rfl := Option.some.inj h
    try simp only [String.append_assoc]
    exact .append (by decide)

/-- Statements that drop an object begin with a verb. -/
theorem opens_drop {statements : List String} (h : drop s = .ok statements) :
    ∀ sql ∈ statements, Opens definitionVerbs sql := by
  unfold drop at h
  split at h
  · cases h
  · dsimp only at h
    split at h <;> obtain rfl := Except.ok.inj h
    case h_1 => simp
    case h_2 =>
      intro sql hsql
      rcases List.mem_append.1 hsql with hdefault | hcolumn
      · split at hdefault
        · rw [List.mem_singleton.1 hdefault, dropDefault]
          simp only [String.append_assoc]
          exact .append (by decide)
        · cases hdefault
      · rw [List.mem_singleton.1 hcolumn]
        simp only [String.append_assoc]
        exact .append (by decide)
    all_goals
      intro sql hsql
      rw [List.mem_singleton.1 hsql]
      simp only [String.append_assoc]
      exact .append (by decide)

/-- Only the database is not dropped. -/
theorem drop_ne_nil (h : s.definition ≠ .database) : drop s ≠ .ok [] := by
  unfold drop
  split
  · simp [unsupported]
  · cases hdefinition : s.definition <;> first | exact absurd hdefinition h | simp

/-- Statements that change a definition begin with a verb. -/
theorem opens_definitionChanges? {old : Definition} {changes : List InPlaceChange}
    (h : definitionChanges? old s = some changes) {change : InPlaceChange}
    (hchange : change ∈ changes) : Opens definitionVerbs change.sql := by
  have hmodule : ∀ {invalidating}, change ∈ redefinition s invalidating →
      Opens definitionVerbs change.sql := fun hin =>
    opens_of_mem_map hin fun definition => .append (by decide)
  unfold definitionChanges? at h
  split at h
  case h_1 =>
    obtain rfl := Option.some.inj h
    cases hchange
  case h_2 =>
    unfold tableChanges? at h
    split at h
    · cases h
    · split at h <;> obtain rfl := Option.some.inj h
      · cases hchange
      · rw [List.mem_singleton.1 hchange]
        simp only [String.append_assoc]
        exact .append (by decide)
  case h_3 =>
    obtain rfl := Option.some.inj h
    unfold columnChanges at hchange
    rcases List.mem_append.1 hchange with htype | hdefault
    · split at htype
      · rw [List.mem_singleton.1 htype]
        simp only [String.append_assoc]
        exact .append (by decide)
      · cases htype
    · split at hdefault
      · cases hdefault
      · rcases List.mem_append.1 hdefault with hdrop | hadd
        · split at hdrop
          · rw [List.mem_singleton.1 hdrop, dropDefault]
            simp only [String.append_assoc]
            exact .append (by decide)
          · cases hdrop
        · refine opens_of_mem_map hadd fun default => ?_
          simp only [String.append_assoc]
          exact .append (by decide)
  case h_4 | h_5 =>
    split at h
    · cases h
    · split at h <;> obtain rfl := Option.some.inj h
      · cases hchange
      · exact hmodule hchange
  case h_6 | h_7 =>
    obtain rfl := Option.some.inj h
    split at hchange
    · cases hchange
    · exact hmodule hchange
  case h_8 =>
    split at h
    · cases h
    · split at h <;> obtain rfl := Option.some.inj h
      · cases hchange
      · rw [List.mem_singleton.1 hchange]
        simp only [String.append_assoc]
        exact .append (by decide)
  case h_12 => cases h
  all_goals
    split at h
    · obtain rfl := Option.some.inj h
      cases hchange
    · cases h

/-- An alteration consists of the changes of the definition and statements about owner and
comment. -/
theorem alter_eq_ok {old : Statement} {alteration : Alteration} (h : alter old s = .ok alteration) :
    ∃ remarks : List String, (∀ sql ∈ remarks, Opens remarkLeads sql) ∧
      alteration = .ofChanges? ((definitionChanges? old.definition s).map fun changes =>
        changes ++ remarks.map (⟨·, false⟩)) := by
  unfold alter at h
  split at h
  · cases h
  · refine ⟨_, fun sql hsql => ?_, (Except.ok.inj h).symm⟩
    rcases List.mem_append.1 hsql with howner | hcomment
    · split at howner
      · exact opens_ownerStatement? (Option.mem_toList.1 howner)
      · cases howner
    · split at hcomment
      · exact opens_commentStatement? (Option.mem_toList.1 hcomment)
      · cases hcomment

/-- The statements of an alteration begin with a verb. -/
theorem opens_of_alter {old : Statement} {alteration : Alteration}
    (h : alter old s = .ok alteration)
    (hsql : sql ∈ (Decision.ofAlteration alteration).statements) :
    Opens verbs sql := by
  obtain ⟨remarks, hremarks, rfl⟩ := alter_eq_ok h
  obtain ⟨_, hfound, change, hchange, rfl⟩ := mem_statements_ofChanges?.1 hsql
  obtain ⟨changes, hchanges, rfl⟩ := Option.map_eq_some_iff.1 hfound
  rcases List.mem_append.1 hchange with hin | hin
  · exact (opens_definitionChanges? hchanges hin).verb
  · obtain ⟨text, htext, rfl⟩ := List.mem_map.1 hin
    exact (hremarks text htext).coarsen (by decide)

/-- The statement that checks a module anew begins with a verb. -/
theorem opens_refresh? (h : refresh? s = some sql) : Opens verbs sql := by
  unfold refresh? at h
  split at h
  case h_5 => cases h
  all_goals
    obtain rfl := Option.some.inj h
    exact .append (by decide)

end Ddl.MsSql

/-! ## ClickHouse -/

namespace Ddl.ClickHouse

variable {s : Statement} {sql : String}

/-- Definitions begin with a verb. -/
theorem opens_define? {children : List Statement} {detached : List ObjectId}
    (h : define? s children detached = .ok (some sql)) : Opens definitionVerbs sql := by
  unfold define? at h
  cases hdefinition : s.definition <;> rw [hdefinition] at h <;> dsimp only at h
  case database | procedure | trigger | sequence | type | policy => cases h
  case table table =>
    obtain ⟨text, htext, hsome⟩ := map_eq_ok.1 h
    obtain rfl := Option.some.inj hsome
    obtain ⟨lines, -, hlines⟩ := bind_eq_ok.1 htext
    obtain rfl := Except.ok.inj hlines
    unfold tableText
    simp only [String.append_assoc]
    exact .append (by decide)
  case constraint constraint =>
    obtain ⟨clause, -, hsome⟩ := map_eq_ok.1 h
    obtain rfl := Option.some.inj hsome
    simp only [String.append_assoc]
    exact .append (by decide)
  all_goals
    obtain rfl := Option.some.inj (Except.ok.inj h)
    try simp only [String.append_assoc]
    exact .append (by decide)

/-- Only the database has no definition. -/
theorem define?_ne_none (h : s.definition ≠ .database) (children : List Statement)
    (detached : List ObjectId) : define? s children detached ≠ .ok none := by
  unfold define?
  cases hdefinition : s.definition
  case database => exact absurd hdefinition h
  case table | constraint =>
    intro hnone
    obtain ⟨_, -, hsome⟩ := map_eq_ok.1 hnone
    cases hsome
  all_goals simp [unsupported]

/-- Statements about a comment begin with a verb. -/
theorem opens_commentStatement? (h : commentStatement? s = some sql) :
    Opens definitionVerbs sql := by
  unfold commentStatement? at h
  split at h
  case h_4 => cases h
  all_goals
    obtain rfl := Option.some.inj h
    simp only [String.append_assoc]
    exact .append (by decide)

/-- Statements that drop an object begin with a verb. -/
theorem opens_drop {statements : List String} (h : drop s = .ok statements) :
    ∀ sql ∈ statements, Opens definitionVerbs sql := by
  unfold drop at h
  split at h
  · cases h
  · split at h <;> obtain rfl := Except.ok.inj h
    case h_1 => simp
    all_goals
      intro sql hsql
      rw [List.mem_singleton.1 hsql]
      try simp only [String.append_assoc]
      exact .append (by decide)

/-- Only the database is not dropped. -/
theorem drop_ne_nil (h : s.kind ≠ .database) : drop s ≠ .ok [] := by
  unfold drop
  split
  · simp [unsupported]
  · split
    · next hkind => exact absurd hkind h
    all_goals simp

/-- Statements that change a definition begin with a verb. -/
theorem opens_definitionChanges? {old : Definition} {changes : List InPlaceChange}
    (h : definitionChanges? old s = some changes) {change : InPlaceChange}
    (hchange : change ∈ changes) : Opens definitionVerbs change.sql := by
  unfold definitionChanges? at h
  split at h
  case h_1 =>
    obtain rfl := Option.some.inj h
    cases hchange
  case h_2 =>
    split at h
    · obtain rfl := Option.some.inj h
      cases hchange
    · cases h
  case h_3 | h_7 =>
    obtain rfl := Option.some.inj h
    split at hchange
    · cases hchange
    · rw [List.mem_singleton.1 hchange]
      simp only [String.append_assoc]
      exact .append (by decide)
  case h_4 =>
    unfold tableChanges? at h
    split at h
    · cases h
    · obtain rfl := Option.some.inj h
      refine opens_of_mem_map hchange fun clause => ?_
      simp only [String.append_assoc]
      exact .append (by decide)
  case h_5 =>
    unfold columnChanges? at h
    split at h
    · cases h
    · obtain rfl := Option.some.inj h
      rcases List.mem_append.1 hchange with htype | hdefault
      · split at htype
        · rw [List.mem_singleton.1 htype]
          simp only [String.append_assoc]
          exact .append (by decide)
        · cases htype
      · split at hdefault
        · rw [List.mem_singleton.1 hdefault]
          simp only [String.append_assoc]
          exact .append (by decide)
        · cases hdefault
  case h_6 =>
    split at h
    · obtain rfl := Option.some.inj h
      cases hchange
    · split at h
      · cases h
      · obtain rfl := Option.some.inj h
        rw [List.mem_singleton.1 hchange]
        exact .append (by decide)
  case h_8 => cases h

/-- The statements of an alteration begin with a verb. -/
theorem opens_of_alter {old : Statement} {alteration : Alteration}
    (h : alter old s = .ok alteration)
    (hsql : sql ∈ (Decision.ofAlteration alteration).statements) :
    Opens verbs sql := by
  unfold alter at h
  split at h
  · cases h
  · obtain rfl := Except.ok.inj h
    obtain ⟨_, hfound, change, hchange, rfl⟩ := mem_statements_ofChanges?.1 hsql
    obtain ⟨changes, hchanges, rfl⟩ := Option.map_eq_some_iff.1 hfound
    rcases List.mem_append.1 hchange with hin | hin
    · exact (opens_definitionChanges? hchanges hin).verb
    · obtain ⟨text, htext, rfl⟩ := List.mem_map.1 hin
      split at htext
      · exact (opens_commentStatement? (Option.mem_toList.1 htext)).verb
      · cases htext

end Ddl.ClickHouse

/-! ## All dialects -/

namespace Dialect

open Ddl

variable {dialect : Dialect} {s t : Statement} {statements : List String} {sql : String}
  {alteration : Alteration}

/-- What is created, the database aside, has a statement for that. -/
theorem exists_opens_of_create {snapshot : Snapshot} {detached : List ObjectId}
    (h : dialect.create s snapshot detached = .ok statements) (hs : s.definition ≠ .database) :
    ∃ sql ∈ statements, Opens verbs sql := by
  cases dialect with
  | postgres =>
    obtain rfl := Except.ok.inj h
    obtain ⟨definition, hdefine⟩ :=
      Ddl.Postgres.exists_define? hs (snapshot.children s.id) detached
    refine ⟨definition, ?_, (Ddl.Postgres.opens_define? hdefine).verb⟩
    simp [Ddl.Postgres.create, hdefine]
  | msSql =>
    simp only [create, Ddl.MsSql.create] at h
    split at h
    · cases h
    · obtain ⟨defined, hdefine, h⟩ := bind_eq_ok.1 h
      cases defined with
      | none => exact absurd hdefine (Ddl.MsSql.define?_ne_none hs _ _)
      | some definition =>
        obtain rfl := Except.ok.inj h
        exact ⟨definition, by simp, (Ddl.MsSql.opens_define? hdefine).verb⟩
  | clickHouse =>
    simp only [create, Ddl.ClickHouse.create] at h
    split at h
    · cases h
    · obtain ⟨defined, hdefine, rfl⟩ := map_eq_ok.1 h
      cases defined with
      | none => exact absurd hdefine (Ddl.ClickHouse.define?_ne_none hs _ _)
      | some definition =>
        exact ⟨definition, by simp, (Ddl.ClickHouse.opens_define? hdefine).verb⟩

/-- What is dropped, the database aside, has a statement for that. -/
theorem exists_opens_of_drop (h : dialect.drop s = .ok statements)
    (htyped : s.definition.kind = s.kind) (hs : s.kind ≠ .database) :
    ∃ sql ∈ statements, Opens verbs sql := by
  have hdefinition : s.definition ≠ .database := fun heq => hs (by rw [← htyped, heq]; rfl)
  have hsome : statements ≠ [] → (∀ sql ∈ statements, Opens definitionVerbs sql) →
      ∃ sql ∈ statements, Opens verbs sql := fun hne hopens => by
    obtain ⟨sql, hsql⟩ := List.exists_mem_of_ne_nil statements hne
    exact ⟨sql, hsql, (hopens sql hsql).verb⟩
  cases dialect with
  | postgres =>
    obtain rfl := Except.ok.inj h
    exact hsome (Ddl.Postgres.drop_ne_nil hdefinition) fun _ => Ddl.Postgres.opens_drop
  | msSql =>
    exact hsome (fun hnil => Ddl.MsSql.drop_ne_nil hdefinition (hnil ▸ h)) (Ddl.MsSql.opens_drop h)
  | clickHouse =>
    exact hsome (fun hnil => Ddl.ClickHouse.drop_ne_nil hs (hnil ▸ h)) (Ddl.ClickHouse.opens_drop h)

/-- The statements of an alteration begin with a verb. -/
theorem opens_of_alter (h : dialect.alter s t = .ok alteration)
    (hsql : sql ∈ (Decision.ofAlteration alteration).statements) : Opens verbs sql := by
  cases dialect with
  | postgres => exact Ddl.Postgres.opens_of_alter (Except.ok.inj h ▸ hsql)
  | msSql => exact Ddl.MsSql.opens_of_alter h hsql
  | clickHouse => exact Ddl.ClickHouse.opens_of_alter h hsql

/-- The statement that refreshes an object begins with a verb. -/
theorem opens_refresh? (h : dialect.refresh? s = some sql) : Opens verbs sql := by
  cases dialect with
  | msSql => exact Ddl.MsSql.opens_refresh? h
  | postgres | clickHouse => cases h

/-- Nothing is done about the database. -/
theorem alter_database (h : dialect.alter s t = .ok alteration) (hs : s.definition = .database)
    (ht : t.definition = .database) (hkind : t.kind = .database) : alteration = .unchanged := by
  cases dialect with
  | postgres =>
    obtain rfl := Except.ok.inj h
    simp [Ddl.Postgres.alter, Ddl.Postgres.definitionChanges?, hs, ht,
      Ddl.Postgres.ownerStatement?, Ddl.Postgres.commentStatement?, Ddl.Postgres.target?,
      Alteration.ofChanges?, Alteration.ofChanges]
  | msSql =>
    simp only [alter, Ddl.MsSql.alter] at h
    split at h
    · cases h
    · obtain rfl := Except.ok.inj h
      simp [Ddl.MsSql.definitionChanges?, hs, ht, Ddl.MsSql.ownerStatement?, hkind,
        Ddl.MsSql.securable?, Ddl.MsSql.commentStatement?, Ddl.MsSql.propertyLevels?,
        Ddl.MsSql.propertyLevel?, Alteration.ofChanges?, Alteration.ofChanges]
  | clickHouse =>
    simp only [alter, Ddl.ClickHouse.alter] at h
    split at h
    · cases h
    · obtain rfl := Except.ok.inj h
      simp [Ddl.ClickHouse.definitionChanges?, hs, ht, Ddl.ClickHouse.commentStatement?, hkind,
        Alteration.ofChanges?, Alteration.ofChanges]

end Dialect

end SchemaMigration
