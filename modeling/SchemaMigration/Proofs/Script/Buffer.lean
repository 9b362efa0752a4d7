import SchemaMigration.Proofs.Ddl.Verb
import SchemaMigration.Script.Buffer

/-!
# Fragments of scripts

A statement that begins with a verb leaves a fragment behind, whatever is trimmed from its ends
(`Script.exists_statementFragment?`). Statements and texts of the user are appended one by one, each
as the fragment that it leaves, if any. A script whose fragments come phase by phase is rendered in
that order (`Script.sorted_eq_self`), and only a script without fragments is rendered as nothing
(`Script.render_eq_empty_iff`).
-/

namespace SchemaMigration

/-! ## Trimming -/

namespace Text

variable {p : Char → Bool} {c : Char} {cs : List Char}

/-- Trimming the end leaves a character at the front that is not to go. -/
theorem dropEndWhile_cons (h : p c = false) :
    dropEndWhile p (c :: cs) = c :: dropEndWhile p cs := by
  have hlast : ∀ front : List Char,
      (front ++ [c]).dropWhile p = front.dropWhile p ++ [c] := by
    intro front
    induction front with
    | nil => simp [h]
    | cons d front ih =>
      rw [List.cons_append, List.dropWhile_cons, List.dropWhile_cons, ih]
      split <;> rfl
  rw [dropEndWhile, List.reverse_cons, hlast, List.reverse_append, dropEndWhile]
  rfl

end Text

namespace Script

open Text

/-- A statement that begins with a capital still does when blanks and a terminator are taken from
its ends. -/
theorem toList_statementText {sql : String} {c : Char} {cs : List Char}
    (hsql : sql.toList = c :: cs)
    (hblank : isBlank c = false) (hterminator : c ≠ ';') :
    ∃ rest, (statementText sql).toList = c :: rest := by
  have htrim : (trim sql).toList = c :: dropEndWhile isBlank cs := by
    rw [trim, trimWhere, hsql, List.dropWhile_cons, if_neg (by simp [hblank]), String.toList_ofList,
      dropEndWhile_cons hblank]
  unfold statementText
  split
  · next rest hreverse =>
    -- What is left in front of the terminator begins with the capital.
    have hfront : (trim sql).toList = rest.reverse ++ [';'] := by
      rw [← List.reverse_reverse (trim sql).toList, hreverse, List.reverse_cons]
    rw [htrim] at hfront
    cases hrest : rest.reverse with
    | nil =>
      rw [hrest] at hfront
      exact absurd (List.cons.inj hfront).1 hterminator
    | cons d front =>
      rw [hrest] at hfront
      obtain rfl := (List.cons.inj hfront).1
      rw [String.toList_ofList, dropEndWhile_cons hblank]
      exact ⟨_, rfl⟩
  · next hreverse =>
    rw [String.toList_ofList, List.reverse_reverse, htrim]
    exact ⟨_, rfl⟩

/-- A statement that begins with a verb leaves a fragment that is not blank. -/
theorem exists_statementFragment? {sql : String} (h : Ddl.Opens Ddl.verbs sql) (phase : Phase) :
    ∃ fragment, statementFragment? phase sql = some fragment ∧
      (trim fragment.sql).isEmpty = false := by
  obtain ⟨verb, hverb, rest, hrest⟩ := h
  have hcapital : ∀ verb ∈ Ddl.verbs,
      verb.toList.head?.any (fun c => !isBlank c && c != ';') = true := by decide
  obtain ⟨c, hc, htest⟩ := (Option.any_eq_true _ _).1 (hcapital verb hverb)
  obtain ⟨hblank, hterminator⟩ : isBlank c = false ∧ c ≠ ';' := by simpa using htest
  obtain ⟨cs, hcs⟩ : ∃ cs, sql.toList = c :: cs := by
    obtain ⟨tail, htail⟩ := List.head?_eq_some_iff.1 hc
    exact ⟨tail ++ rest, by rw [← hrest, htail, List.cons_append]⟩
  obtain ⟨tail, htail⟩ := toList_statementText hcs hblank hterminator
  have hne : ∀ {text : String} {tail : List Char}, text.toList = c :: tail →
      text.isEmpty = false := fun htext => by
    rw [Bool.eq_false_iff, ne_eq, String.isEmpty_iff]
    rintro rfl
    cases htext
  refine ⟨⟨phase, statementText sql, false⟩, ?_, ?_⟩
  · simp only [statementFragment?, hne htail, Bool.false_eq_true, if_false]
  · refine hne (?_ : _ = c :: dropEndWhile isBlank tail)
    rw [trim, trimWhere, htail, List.dropWhile_cons, if_neg (by simp [hblank]),
      String.toList_ofList, dropEndWhile_cons hblank]

/-! ## Appending -/

variable {script : Script} {phase : Phase}

/-- The fragments of statements are of the phase that they are meant for. -/
theorem phase_of_mem_statements {statements : List String} {fragment : Fragment}
    (h : fragment ∈ statements.filterMap (statementFragment? phase)) : fragment.phase = phase := by
  obtain ⟨sql, -, hsql⟩ := List.mem_filterMap.1 h
  simp only [statementFragment?] at hsql
  split at hsql
  · cases hsql
  · rw [← Option.some.inj hsql]

/-- The fragments of texts are of the phase that they are meant for. -/
theorem phase_of_mem_texts {texts : List String} {fragment : Fragment}
    (h : fragment ∈ texts.filterMap (verbatimFragment? phase)) : fragment.phase = phase := by
  obtain ⟨sql, -, hsql⟩ := List.mem_filterMap.1 h
  simp only [verbatimFragment?] at hsql
  split at hsql
  · cases hsql
  · rw [← Option.some.inj hsql]

/-- Statements are appended as the fragments that they leave. -/
theorem pushAll_eq (script : Script) (phase : Phase) (statements : List String) :
    script.pushAll phase statements = { script with
      fragments := script.fragments ++ statements.filterMap (statementFragment? phase) } := by
  unfold pushAll
  induction statements generalizing script with
  | nil => simp
  | cons sql rest ih =>
    rw [List.foldl_cons, ih, fragments_push]
    cases hfragment : statementFragment? phase sql <;> simp [hfragment, push]

/-- Texts of the user are appended as the fragments that they leave. -/
theorem pushAllVerbatim_eq (script : Script) (phase : Phase) (texts : List String) :
    script.pushAllVerbatim phase texts = { script with
      fragments := script.fragments ++ texts.filterMap (verbatimFragment? phase) } := by
  unfold pushAllVerbatim
  induction texts generalizing script with
  | nil => simp
  | cons sql rest ih =>
    rw [List.foldl_cons, ih, fragments_pushVerbatim]
    cases hfragment : verbatimFragment? phase sql <;> simp [hfragment, pushVerbatim]

/-! ## Rendering -/

/-- Fragments of one phase are in order. -/
theorem pairwise_of_phase {fragments : List Fragment}
    (h : ∀ fragment ∈ fragments, fragment.phase = phase) :
    fragments.Pairwise fun a b => decide (a.phase.rank ≤ b.phase.rank) = true :=
  List.Pairwise.imp_of_mem (R := fun _ _ => True) (fun ha hb _ => by simp [h _ ha, h _ hb])
    (List.pairwise_of_forall fun _ _ => trivial)

/-- Fragments that come phase by phase stay in their order. -/
theorem sorted_eq_self {opening body closing : List Fragment}
    (hscript : script.fragments = opening ++ body ++ closing)
    (hopening : ∀ fragment ∈ opening, fragment.phase = .opening)
    (hbody : ∀ fragment ∈ body, fragment.phase = .body)
    (hclosing : ∀ fragment ∈ closing, fragment.phase = .closing) :
    script.sorted = script.fragments := by
  refine List.mergeSort_of_pairwise ?_
  rw [hscript, List.pairwise_append, List.pairwise_append]
  refine ⟨⟨pairwise_of_phase hopening, pairwise_of_phase hbody, fun a ha b hb => ?_⟩,
    pairwise_of_phase hclosing, fun a ha b hb => ?_⟩
  · simp [hopening a ha, hbody b hb, Phase.rank]
  · rcases List.mem_append.1 ha with ha | ha
    · simp [hopening a ha, hclosing b hb, Phase.rank]
    · simp [hbody a ha, hclosing b hb, Phase.rank]

/-- No fragment is rendered as nothing. -/
theorem fragmentText_ne (dialect : Dialect) (fragment : Fragment) :
    fragmentText dialect fragment ≠ "" := by
  unfold fragmentText
  split
  · simp
  · cases dialect <;> simp [separator]

/-- Only a script without fragments is rendered as nothing. -/
theorem render_eq_empty_iff : script.render = "" ↔ script.fragments = [] := by
  have hsorted : script.sorted = [] ↔ script.fragments = [] := by
    rw [← List.length_eq_zero_iff, ← List.length_eq_zero_iff, sorted, List.length_mergeSort]
  rw [← hsorted, render]
  cases script.sorted with
  | nil => simp [renderFrom]
  | cons fragment rest => simp [renderFrom, fragmentText_ne]

end Script

end SchemaMigration
