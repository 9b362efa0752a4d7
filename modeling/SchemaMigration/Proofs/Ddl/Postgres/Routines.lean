import SchemaMigration.Proofs.Ddl.Postgres

/-!
# Bodies between marks

The body of a routine stands between two marks of dollar signs, and is read from behind the first
one up to the next place where the mark stands (`Text.cutAt?`). That place is the end of the body
unless the mark can be found earlier, in the body or across its end (`Text.cutAt?_append_iff`).
Since the marks overlap with themselves by a dollar sign only, this means that the body holds the
mark or ends with all of it but the last dollar sign (`Ddl.Postgres.Clashes`). The mark is chosen by
what the body holds, so what is left are bodies that end with a dollar sign, and those that hold
both marks (`Ddl.Postgres.body_read_back_iff`).
-/

namespace SchemaMigration

/-! ## The first place of a mark -/

namespace Text

/-- Looking for a part finds exactly what is one. -/
theorem occursIn_iff_infix {part cs : List Char} : occursIn part cs = true ↔ part <:+: cs := by
  induction cs with
  | nil => rw [occursIn, List.isEmpty_iff, List.infix_nil]
  | cons c cs ih =>
    rw [occursIn, Bool.or_eq_true, List.isPrefixOf_iff_prefix, ih, List.infix_cons_iff]

/-- The text in front of the first place where a mark stands, and the text behind the mark. -/
def cutAt? (mark : List Char) : List Char → Option (List Char × List Char)
  | [] => none
  | c :: cs =>
    if mark.isPrefixOf (c :: cs) then some ([], (c :: cs).drop mark.length)
    else (cutAt? mark cs).map (Prod.map (c :: ·) id)

variable {mark body : List Char}

/-- What begins with a mark is cut there. -/
theorem cutAt?_self (hmark : mark ≠ []) : cutAt? mark mark = some ([], []) := by
  obtain ⟨c, cs, rfl⟩ := List.exists_cons_of_ne_nil hmark
  rw [cutAt?, if_pos (List.isPrefixOf_iff_prefix.2 (List.prefix_refl _)), List.drop_length]

/-- A text is cut at the mark behind it exactly if the mark does not stand across its end or in
front of that. -/
theorem cutAt?_append_iff (hmark : mark ≠ []) :
    cutAt? mark (body ++ mark) = some (body, []) ↔ ¬ mark <:+: body ++ mark.dropLast := by
  have hpos : 0 < mark.length := List.length_pos_iff.2 hmark
  induction body with
  | nil =>
    refine iff_of_true (cutAt?_self hmark) fun hin => ?_
    have hlength := hin.length_le
    rw [List.nil_append, List.length_dropLast] at hlength
    omega
  | cons c body ih =>
    have hshort : mark <+: c :: (body ++ mark) ↔ mark <+: c :: (body ++ mark.dropLast) := by
      constructor
      · intro h
        refine List.prefix_of_prefix_length_le h ?_ (by simp; omega)
        refine List.cons_prefix_cons.2 ⟨rfl, ?_⟩
        exact List.prefix_append_right_inj body |>.2 (List.dropLast_prefix mark)
      · intro h
        refine h.trans (List.cons_prefix_cons.2 ⟨rfl, ?_⟩)
        exact List.prefix_append_right_inj body |>.2 (List.dropLast_prefix mark)
    rw [List.cons_append, cutAt?, List.cons_append, List.infix_cons_iff, not_or, ← hshort]
    by_cases h : mark <+: c :: (body ++ mark)
    · simp [h]
    · rw [if_neg (by rwa [List.isPrefixOf_iff_prefix])]
      simp only [h, not_false_eq_true, true_and]
      refine Iff.trans ?_ ih
      simp [Option.map_eq_some_iff]

/-- A mark overlaps with itself by its last character only: that is the only end of it with which it
begins as well. -/
def OverlapsByLast (mark : List Char) : Prop :=
  ∀ k < mark.length, 0 < k → (mark.drop k <+: mark.dropLast ↔ k + 1 = mark.length)

/-- Whether a mark overlaps with itself by its last character only can be computed. -/
instance (mark : List Char) : Decidable (OverlapsByLast mark) :=
  inferInstanceAs (Decidable (∀ k < mark.length, _))

/-- Such a mark stands in a text or across its end exactly if the text holds it, or ends with all of
it but the last character. -/
theorem infix_append_dropLast_iff (hoverlap : OverlapsByLast mark) (hlong : 1 < mark.length) :
    mark <:+: body ++ mark.dropLast ↔ mark <:+: body ∨ mark.dropLast <:+ body := by
  have hsplit : mark = mark.dropLast ++ mark.drop (mark.length - 1) := by
    rw [List.dropLast_eq_take, List.take_append_drop]
  rw [List.infix_append_iff_ne_nil]
  constructor
  · rintro (hin | hin | ⟨front, behind, hfront, hbehind, rfl, hends, hbegins⟩)
    · exact .inl hin
    · have hlength := hin.length_le
      rw [List.length_dropLast] at hlength
      omega
    · right
      have hpos := List.length_pos_iff.2 hfront
      have hpos' := List.length_pos_iff.2 hbehind
      have hlast : front.length + 1 = (front ++ behind).length := by
        refine (hoverlap front.length ?_ hpos).1 ?_
        · rw [List.length_append]
          omega
        · rwa [List.drop_left]
      rwa [List.dropLast_eq_take, ← hlast, Nat.add_sub_cancel, List.take_left]
  · rintro (hin | hends)
    · exact .inl hin
    · refine .inr (.inr ⟨_, _, ?_, ?_, hsplit, hends, ?_⟩)
      · rw [ne_eq, ← List.length_eq_zero_iff, List.length_dropLast]
        omega
      · rw [ne_eq, ← List.length_eq_zero_iff, List.length_drop]
        omega
      · exact (hoverlap (mark.length - 1) (by omega) (by omega)).2 (by omega)

end Text

namespace Ddl.Postgres

variable {s : Statement} {routine : RoutineDefinition} {sql : String}

/-! ## The text of a routine -/

/-- The definition of a routine up to the mark in front of its body. -/
def routineLead (s : Statement) (routine : RoutineDefinition) : String :=
  let procedure := s.kind = .procedure
  "CREATE OR REPLACE " ++ (if procedure then "PROCEDURE " else "FUNCTION ") ++ qualified s.id ++
    "(" ++ Text.commaList (routine.arguments.map argumentClause) ++ ")" ++
    onlyIf (!procedure) ("\n    RETURNS " ++ routine.returns.getD "void") ++
    "\n    LANGUAGE " ++ routine.language.getD "sql" ++
    optional "\n    " (routine.volatility.map Text.upperAscii) ++ "\nAS "

/-- The body stands between two marks, and nothing behind them. -/
theorem createRoutine_eq (s : Statement) (routine : RoutineDefinition) :
    createRoutine s routine = routineLead s routine ++ bodyMark routine.body ++
      (routine.body ++ bodyMark routine.body) := by
  unfold createRoutine routineLead
  simp only [String.append_assoc]

/-- A statement takes the place of an earlier definition. -/
def Replaces (sql : String) : Prop := Opens ["CREATE OR REPLACE "] sql

/-- Definitions of routines take the place of earlier ones. -/
theorem replaces_createRoutine : Replaces (createRoutine s routine) := by
  unfold createRoutine
  simp only [String.append_assoc]
  exact .append (by decide)

/-- Statements about an owner or a comment take the place of nothing. -/
theorem not_replaces_of_opens (h : Opens ["ALTER", "COMMENT"] sql) : ¬ Replaces sql :=
  h.disjoint (by decide)

section
variable (hs : s.definition = .function routine ∨ s.definition = .procedure routine)
include hs

/-- A routine is created by its definition, and by statements about its owner and comment. -/
theorem create_of_routine (snapshot : Snapshot) (detached : List ObjectId) :
    create s snapshot detached =
      createRoutine s routine :: ((ownerStatement? s).toList ++ (presentComment? s).toList) := by
  rcases hs with hs | hs <;> simp [create, define?, innerComments, hs]

/-- Of the statements that create a routine only its definition takes the place of an earlier
one. -/
theorem replaces_of_create (snapshot : Snapshot) (detached : List ObjectId) :
    ∃ others, create s snapshot detached = createRoutine s routine :: others ∧
      ∀ sql ∈ others, ¬ Replaces sql := by
  refine ⟨_, create_of_routine hs snapshot detached, fun sql hsql => ?_⟩
  refine not_replaces_of_opens ?_
  rcases List.mem_append.1 hsql with howner | hcomment
  · exact (opens_ownerStatement? (Option.mem_toList.1 howner)).mono (by decide)
  · have hset := commentStatement?_of_presentComment? (Option.mem_toList.1 hcomment)
    exact (opens_commentStatement? hset).mono (by decide)

/-- The definition of a routine is not changed in place, or the new one takes its place. -/
theorem eq_or_eq_of_definitionChanges? {old : Definition} {changes : List InPlaceChange}
    (h : definitionChanges? old s = some changes) :
    changes = [] ∨ changes = [{ sql := createRoutine s routine }] := by
  unfold definitionChanges? at h
  rcases hs with hs | hs
  all_goals
    rw [hs] at h
    cases old <;> dsimp only at h <;> try cases h
    split at h
    · cases h
    · split at h <;> obtain rfl := Option.some.inj h <;> simp

/-- Of the statements that alter a routine only its definition takes the place of an earlier one. -/
theorem eq_createRoutine_of_alter {old : Statement}
    (h : sql ∈ (Decision.ofAlteration (alter old s)).statements) (hreplaces : Replaces sql) :
    sql = createRoutine s routine := by
  cases hchanges : definitionChanges? old.definition s with
  | none =>
    rw [alter_eq_recreate.2 hchanges] at h
    cases h
  | some changes =>
    rw [statements_alter hchanges] at h
    rcases List.mem_append.1 h with h | h
    · rcases eq_or_eq_of_definitionChanges? hs hchanges with rfl | rfl
      · cases h
      · exact List.mem_singleton.1 h
    · exact absurd hreplaces (not_replaces_of_opens (opens_of_mem_remarkStatements h))

end

/-! ## The end of a body -/

/-- The mark around a body is found earlier than behind it: the body ends with a dollar sign or, if
it holds a plain mark, it holds the named one as well, or ends with all of that but the last dollar
sign. -/
def Clashes (body : String) : Prop :=
  ¬ "$$".toList <:+: body.toList ∧ "$".toList <:+ body.toList ∨
    "$$".toList <:+: body.toList ∧
      ("$function$".toList <:+: body.toList ∨ "$function".toList <:+ body.toList)

/-- Whether the mark around a body is found earlier can be computed. -/
instance : DecidablePred Clashes := fun _ =>
  inferInstanceAs (Decidable (_ ∧ _ ∨ _ ∧ (_ ∨ _)))

/-- A body is read up to its end unless the mark is found earlier. -/
theorem cutAt?_bodyMark_iff (body : String) :
    Text.cutAt? (bodyMark body).toList (body ++ bodyMark body).toList = some (body.toList, []) ↔
      ¬ Clashes body := by
  rw [String.toList_append]
  by_cases hplain : "$$".toList <:+: body.toList
  · have hmark : bodyMark body = "$function$" := if_pos (Text.occursIn_iff_infix.2 hplain)
    rw [hmark, Text.cutAt?_append_iff (by decide),
      Text.infix_append_dropLast_iff (by decide) (by decide)]
    simp only [Clashes, hplain, not_true_eq_false, false_and, false_or, true_and]
    rfl
  · have hmark : bodyMark body = "$$" := if_neg (mt Text.occursIn_iff_infix.1 hplain)
    rw [hmark, Text.cutAt?_append_iff (by decide),
      Text.infix_append_dropLast_iff (by decide) (by decide)]
    simp only [Clashes, hplain, not_false_eq_true, true_and, false_or, false_and, or_false]
    rfl

/-- **Bodies are read back.** A routine is created by one statement that takes the place of an
earlier definition, and altered by the same one if by any. Behind the first mark in it, the text up
to the next place of the mark is the body, with nothing behind it, exactly if the body does not
clash with the marks. -/
theorem body_read_back_iff (s : Statement) (routine : RoutineDefinition)
    (hs : s.definition = .function routine ∨ s.definition = .procedure routine) :
    Replaces (createRoutine s routine) ∧
    (∀ snapshot detached, ∃ others,
      create s snapshot detached = createRoutine s routine :: others ∧
        ∀ sql ∈ others, ¬ Replaces sql) ∧
    (∀ old, ∀ sql ∈ (Decision.ofAlteration (alter old s)).statements, Replaces sql →
      sql = createRoutine s routine) ∧
    ∃ rest, createRoutine s routine = routineLead s routine ++ bodyMark routine.body ++ rest ∧
      (Text.cutAt? (bodyMark routine.body).toList rest.toList = some (routine.body.toList, []) ↔
        ¬ Clashes routine.body) :=
  ⟨replaces_createRoutine, replaces_of_create hs, fun _ _ => eq_createRoutine_of_alter hs, _,
    createRoutine_eq s routine, cutAt?_bodyMark_iff routine.body⟩

/-- A function without arguments. -/
def answer (body : String) : Statement where
  id := .function "a" "answer" []
  parent := some ⟨.schema, ["a"]⟩
  definition := .function { returns := some "int", body }

/-- A body that holds plain marks stands between named ones. -/
theorem marked_body_read_back :
    let body := "SELECT length($$x$$)"
    let routine : RoutineDefinition := { returns := some "int", body }
    (answer body).definition = .function routine ∧
      createRoutine (answer body) routine = "CREATE OR REPLACE FUNCTION a.answer()" ++
        "\n    RETURNS int\n    LANGUAGE sql\nAS $function$SELECT length($$x$$)$function$" ∧
      createRoutine (answer body) routine ∈
        (Decision.ofAlteration (alter (answer "SELECT 1") (answer body))).statements ∧
      ∃ rest, createRoutine (answer body) routine =
          routineLead (answer body) routine ++ "$function$" ++ rest ∧
        Text.cutAt? "$function$".toList rest.toList = some (body.toList, []) := by
  intro body routine
  obtain ⟨-, -, -, rest, htext, hread⟩ := body_read_back_iff (answer body) routine (.inl rfl)
  have hmark : bodyMark body = "$function$" := by decide +kernel
  rw [hmark] at htext hread
  exact ⟨rfl, by decide +kernel, by decide +kernel, rest, htext, hread.2 (by decide +kernel)⟩

/-- A dollar sign at the end of a body is taken for the first one of the mark behind it. -/
theorem body_cut_short :
    let body := "SELECT 1 -- $"
    (∀ snapshot detached, create (answer body) snapshot detached =
        ["CREATE OR REPLACE FUNCTION a.answer()\n    RETURNS int\n    LANGUAGE sql\nAS " ++ "$$" ++
          "SELECT 1 -- $$$"]) ∧
      Text.cutAt? "$$".toList "SELECT 1 -- $$$".toList =
        some ("SELECT 1 -- ".toList, "$".toList) := by
  intro body
  constructor
  · intro snapshot detached
    rw [create_of_routine (.inl rfl)]
    decide +kernel
  · decide +kernel

end Ddl.Postgres

end SchemaMigration
