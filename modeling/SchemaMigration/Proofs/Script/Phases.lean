import Mathlib.Data.List.TakeWhile
import SchemaMigration.Proofs.Script.Buffer

/-!
# The phases of scripts

Statements and texts of the user may be appended to a script in any order of their phases
(`Script.Call`). Sorting is stable, so the fragments of one phase keep the order in which they were
appended, whatever was appended in between (`Script.sorted_eq`). A sorted script is rendered phase
by phase, with a line feed where the phase changes (`Script.renderFrom_none`). So the text of a
script is that of its phases with blank lines between them, and each phase is what was appended to
it (`Script.render_phase_by_phase`).
-/

namespace SchemaMigration

namespace Text

/-- A text of which something is left at its front can be shortened at its end to what goes on to a
character that is not blank. -/
theorem exists_trimEnd_eq {sql : String} (h : (trim sql).isEmpty = false) :
    ∃ front c, (trimEnd sql).toList = front ++ [c] ∧ isBlank c = false := by
  rw [trimEnd, String.toList_ofList, dropEndWhile]
  cases hback : sql.toList.reverse.dropWhile isBlank with
  | nil =>
    -- All characters are blank, so nothing is left at the front either.
    have hblank : ∀ c ∈ sql.toList, isBlank c = true := fun c hc =>
      List.dropWhile_eq_nil_iff.1 hback c (List.mem_reverse.2 hc)
    have hnone : trim sql = "" := by
      rw [trim, trimWhere, List.dropWhile_eq_nil_iff.2 hblank, dropEndWhile_nil]
    rw [hnone] at h
    cases h
  | cons c front =>
    have hc := List.head_dropWhile_not isBlank (l := sql.toList.reverse) (by simp [hback])
    refine ⟨front.reverse, c, List.reverse_cons, ?_⟩
    simpa [hback] using hc

end Text

namespace Script

variable {dialect : Dialect}

/-! ## Appending -/

/-- A call that appends to a script: a statement, or a text of the user. -/
inductive Call where
  | push (phase : Phase) (sql : String)
  | pushVerbatim (phase : Phase) (sql : String)
  deriving DecidableEq, Repr

namespace Call

/-- The phase that a call appends to. -/
def phase : Call → Phase
  | push phase _ | pushVerbatim phase _ => phase

/-- A script after a call. -/
def perform (script : Script) : Call → Script
  | push phase sql => script.push phase sql
  | pushVerbatim phase sql => script.pushVerbatim phase sql

/-- The fragment that a call leaves, if any. -/
def fragment? : Call → Option Fragment
  | push phase sql => statementFragment? phase sql
  | pushVerbatim phase sql => verbatimFragment? phase sql

/-- The text that a call leaves in a script of a dialect, if any: a statement with its separator,
or a text of the user, whose last line is ended. -/
def text? (dialect : Dialect) : Call → Option String
  | push _ sql =>
    if (statementText sql).isEmpty then none else some (statementText sql ++ separator dialect)
  | pushVerbatim _ sql =>
    if (Text.trim sql).isEmpty then none else some (Text.trimEnd sql ++ "\n")

/-- The text of a call is that of its fragment. -/
theorem text?_eq (dialect : Dialect) (call : Call) :
    call.text? dialect = call.fragment?.map (fragmentText dialect) := by
  cases call with
  | push phase sql =>
    rw [text?, fragment?, statementFragment?]
    split
    · rfl
    · simp [fragmentText]
  | pushVerbatim phase sql =>
    rw [text?, fragment?, verbatimFragment?]
    split
    · rfl
    · simp [fragmentText]

/-- A fragment is of the phase that the call appends to. -/
theorem phase_of_fragment? {call : Call} {fragment : Fragment}
    (h : call.fragment? = some fragment) : fragment.phase = call.phase := by
  cases call with
  | push phase sql =>
    rw [fragment?, statementFragment?, Option.ite_none_left_eq_some] at h
    rw [← Option.some.inj h.2]
    rfl
  | pushVerbatim phase sql =>
    rw [fragment?, verbatimFragment?, Option.ite_none_left_eq_some] at h
    rw [← Option.some.inj h.2]
    rfl

/-- The text of a call ends with one line feed. -/
theorem exists_text?_eq {call : Call} {text : String} (h : call.text? dialect = some text) :
    ∃ front c, text.toList = front ++ [c, '\n'] ∧ Text.isBlank c = false := by
  cases call with
  | push phase sql =>
    rw [text?, Option.ite_none_left_eq_some] at h
    rw [← Option.some.inj h.2, String.toList_append]
    cases dialect with
    | postgres | clickHouse => exact ⟨(statementText sql).toList, ';', rfl, by decide⟩
    | msSql =>
      refine ⟨(statementText sql).toList ++ ['\n', 'G'], 'O', ?_, by decide⟩
      rw [List.append_assoc]
      rfl
  | pushVerbatim phase sql =>
    rw [text?, Option.ite_none_left_eq_some] at h
    obtain ⟨hsql, htext⟩ := h
    obtain ⟨front, c, hfront, hc⟩ := Text.exists_trimEnd_eq (Bool.not_eq_true _ ▸ hsql)
    refine ⟨front, c, ?_, hc⟩
    rw [← Option.some.inj htext, String.toList_append, hfront, List.append_assoc]
    rfl

end Call

/-- A script after some calls. -/
def run (script : Script) (calls : List Call) : Script := calls.foldl Call.perform script

/-- The text of a phase after some calls: the texts that those calls leave which append to it. -/
def phaseText (dialect : Dialect) (calls : List Call) (phase : Phase) : String :=
  String.join ((calls.filter (·.phase = phase)).filterMap (Call.text? dialect))

/-- Calls leave their fragments behind those of a script. -/
theorem run_eq (script : Script) (calls : List Call) : script.run calls =
    { script with fragments := script.fragments ++ calls.filterMap Call.fragment? } := by
  unfold run
  induction calls generalizing script with
  | nil => simp
  | cons call calls ih =>
    have hcall : Call.perform script call =
        { script with fragments := script.fragments ++ call.fragment?.toList } := by
      cases call <;> rfl
    rw [List.foldl_cons, ih, hcall, List.filterMap_cons]
    cases call.fragment? <;> simp

/-- The fragments of a phase are those of the calls that append to it. -/
theorem filter_fragments (calls : List Call) (phase : Phase) :
    (calls.filterMap Call.fragment?).filter (·.phase = phase) =
      (calls.filter (·.phase = phase)).filterMap Call.fragment? := by
  rw [List.filter_filterMap, List.filterMap_filter]
  refine List.filterMap_congr fun call _ => ?_
  cases hfragment : call.fragment? with
  | none => simp
  | some fragment => simp [Call.phase_of_fragment? hfragment, Option.filter]

/-- The text of a phase is made of its fragments. -/
theorem phaseText_eq (dialect : Dialect) (calls : List Call) (phase : Phase) :
    phaseText dialect calls phase = String.join
      (((calls.filterMap Call.fragment?).filter (·.phase = phase)).map (fragmentText dialect)) := by
  rw [filter_fragments, List.map_filterMap]
  simp only [phaseText, Call.text?_eq]

/-! ## Sorting -/

/-- Fragments in the order of their phases are those of each phase, one phase behind the other. -/
theorem eq_flatMap_phases {fragments : List Fragment}
    (h : fragments.Pairwise fun a b => a.phase.rank ≤ b.phase.rank) :
    fragments = Phase.all.flatMap fun phase => fragments.filter (·.phase = phase) := by
  induction fragments with
  | nil => rfl
  | cons first rest ih =>
    obtain ⟨hfirst, hrest⟩ := List.pairwise_cons.1 h
    -- What follows a fragment is of no phase before its own.
    have hnone : ∀ phase : Phase, phase.rank < first.phase.rank →
        rest.filter (·.phase = phase) = [] := by
      intro phase hphase
      rw [List.filter_eq_nil_iff]
      intro fragment hfragment heq
      have hle := hfirst fragment hfragment
      rw [of_decide_eq_true heq] at hle
      omega
    have hall := ih hrest
    simp only [Phase.all, List.flatMap_cons, List.flatMap_nil, List.append_nil,
      List.filter_cons] at hall ⊢
    cases hphase : first.phase with
    | opening => simpa using hall
    | body =>
      have hopening := hnone .opening (by simp [hphase, Phase.rank])
      rw [hopening] at hall ⊢
      simpa using hall
    | closing =>
      have hopening := hnone .opening (by simp [hphase, Phase.rank])
      have hbody := hnone .body (by simp [hphase, Phase.rank])
      rw [hopening, hbody] at hall ⊢
      simpa using hall

/-- Sorting a script keeps the fragments of each phase in their order. -/
theorem filter_sorted (script : Script) (phase : Phase) :
    script.sorted.filter (·.phase = phase) = script.fragments.filter (·.phase = phase) := by
  have hsame : (script.fragments.filter (·.phase = phase)).Pairwise
      fun a b => decide (a.phase.rank ≤ b.phase.rank) = true :=
    pairwise_of_phase fun fragment hfragment => of_decide_eq_true (List.mem_filter.1 hfragment).2
  have hsublist : (script.fragments.filter (·.phase = phase)).Sublist script.sorted :=
    List.sublist_mergeSort (by simp; omega) (by simp; omega) hsame List.filter_sublist
  have hinside := hsublist.filter (·.phase = phase)
  rw [List.filter_filter] at hinside
  simp only [Bool.and_self] at hinside
  refine (hinside.eq_of_length_le (Nat.le_of_eq ?_)).symm
  exact ((List.mergeSort_perm ..).filter _).length_eq

/-- A sorted script holds the fragments of each phase in their order, one phase behind the other. -/
theorem sorted_eq (script : Script) : script.sorted =
    Phase.all.flatMap fun phase => script.fragments.filter (·.phase = phase) := by
  have hsorted : script.sorted.Pairwise fun a b => a.phase.rank ≤ b.phase.rank := by
    have hpairwise : script.sorted.Pairwise fun a b =>
        decide (a.phase.rank ≤ b.phase.rank) = true :=
      List.pairwise_mergeSort (by simp; omega) (by simp; omega) script.fragments
    exact hpairwise.imp of_decide_eq_true
  rw [eq_flatMap_phases hsorted]
  simp only [filter_sorted]

/-! ## Rendering -/

/-- Fragments of the phase that a script is in go on without a line feed. -/
theorem renderFrom_append {phase : Phase} {fragments : List Fragment}
    (h : ∀ fragment ∈ fragments, fragment.phase = phase) (rest : List Fragment) :
    renderFrom dialect (some phase) (fragments ++ rest) = String.join
      (fragments.map (fragmentText dialect)) ++ renderFrom dialect (some phase) rest := by
  induction fragments with
  | nil => simp
  | cons fragment fragments ih =>
    obtain ⟨hfragment, hfragments⟩ := List.forall_mem_cons.1 h
    rw [List.cons_append, renderFrom, hfragment, ih hfragments]
    simp [String.append_assoc]

/-- Texts with a separator between them are the first one and the others with the separator in front
of each. -/
theorem intercalate_cons (sep text : String) (texts : List String) :
    sep.intercalate (text :: texts) = text ++ String.join (texts.map (sep ++ ·)) := by
  induction texts generalizing text with
  | nil => simp
  | cons next texts ih =>
    rw [String.intercalate_cons_cons, ih, List.map_cons, String.join_cons]
    simp only [String.append_assoc]

/-- The texts of some phases, those that are empty left out. -/
def texts (dialect : Dialect) (group : Phase → List Fragment) (phases : List Phase) : List String :=
  (phases.map fun phase => String.join ((group phase).map (fragmentText dialect))).filter (· ≠ "")

section
variable {group : Phase → List Fragment}
  (hgroup : ∀ phase, ∀ fragment ∈ group phase, fragment.phase = phase)
include hgroup

/-- A phase that is not empty begins with its first fragment, and what follows goes on from it. -/
theorem exists_renderFrom_eq (dialect : Dialect) {phase : Phase} (h : group phase ≠ [])
    (rest : List Fragment) :
    ∃ text, String.join ((group phase).map (fragmentText dialect)) = text ∧ text ≠ "" ∧
      ∀ previous, renderFrom dialect previous (group phase ++ rest) =
        (if previous.any (· != phase) then "\n" else "") ++ text ++
          renderFrom dialect (some phase) rest := by
  obtain ⟨fragment, fragments, hfirst⟩ := List.exists_cons_of_ne_nil h
  have hphase := hgroup phase
  rw [hfirst] at hphase ⊢
  obtain ⟨hfragment, hfragments⟩ := List.forall_mem_cons.1 hphase
  refine ⟨_, rfl, by simp [fragmentText_ne], fun previous => ?_⟩
  rw [List.cons_append, renderFrom, hfragment, renderFrom_append hfragments]
  simp [String.append_assoc]

/-- Every further phase that is not empty begins with a line feed. -/
theorem renderFrom_some {phases : List Phase} {previous : Phase}
    (h : (previous :: phases).Nodup) :
    renderFrom dialect (some previous) (phases.flatMap group) =
      String.join ((texts dialect group phases).map ("\n" ++ ·)) := by
  induction phases generalizing previous with
  | nil => rfl
  | cons phase phases ih =>
    obtain ⟨hnot, hphases⟩ := List.nodup_cons.1 h
    by_cases hempty : group phase = []
    · have hrest := ih (h.sublist ((List.sublist_cons_self phase phases).cons_cons previous))
      simpa [texts, hempty] using hrest
    · obtain ⟨text, htext, hne, hrender⟩ :=
        exists_renderFrom_eq hgroup dialect hempty (phases.flatMap group)
      have hchange : previous ≠ phase := fun heq => hnot (heq ▸ List.mem_cons_self)
      rw [List.flatMap_cons, hrender, ih hphases]
      simp [texts, htext, hne, hchange, String.append_assoc]

/-- Phases are rendered with a line feed between those that are not empty. -/
theorem renderFrom_none {phases : List Phase} (h : phases.Nodup) :
    renderFrom dialect none (phases.flatMap group) =
      "\n".intercalate (texts dialect group phases) := by
  induction phases with
  | nil => rfl
  | cons phase phases ih =>
    by_cases hempty : group phase = []
    · have hrest := ih (List.nodup_cons.1 h).2
      simpa [texts, hempty] using hrest
    · obtain ⟨text, htext, hne, hrender⟩ :=
        exists_renderFrom_eq hgroup dialect hempty (phases.flatMap group)
      have htexts : texts dialect group (phase :: phases) = text :: texts dialect group phases := by
        rw [texts, List.map_cons, htext, List.filter_cons_of_pos (by simpa using hne), texts]
      rw [List.flatMap_cons, hrender, renderFrom_some hgroup h, htexts, intercalate_cons]
      simp

end

/-- After some calls a script is rendered as the texts of its phases. -/
theorem render_run (dialect : Dialect) (calls : List Call) :
    (run { dialect } calls).render =
      "\n".intercalate ((Phase.all.map (phaseText dialect calls)).filter (· ≠ "")) := by
  have hgroup : ∀ phase, ∀ fragment ∈ (calls.filterMap Call.fragment?).filter (·.phase = phase),
      fragment.phase = phase := fun phase fragment hfragment =>
    of_decide_eq_true (List.mem_filter.1 hfragment).2
  have htexts : (Phase.all.map (phaseText dialect calls)).filter (· ≠ "") =
      texts dialect (fun phase => (calls.filterMap Call.fragment?).filter (·.phase = phase))
        Phase.all := by
    rw [texts]
    refine congrArg (List.filter _) (List.map_congr_left fun phase _ => ?_)
    exact phaseText_eq dialect calls phase
  rw [htexts, ← renderFrom_none hgroup (by decide), render, sorted_eq, run_eq]
  simp

/-- The text of a phase that is not empty ends with one line feed. -/
theorem exists_phaseText_eq {calls : List Call} {phase : Phase}
    (h : phaseText dialect calls phase ≠ "") :
    ∃ front c, (phaseText dialect calls phase).toList = front ++ [c, '\n'] ∧
      Text.isBlank c = false := by
  have hcalls : (calls.filter (·.phase = phase)).filterMap (Call.text? dialect) ≠ [] := by
    intro hnil
    rw [phaseText, hnil] at h
    exact h rfl
  obtain ⟨texts, text, hsplit⟩ := List.eq_nil_or_concat _ |>.resolve_left hcalls
  have hmem : text ∈ (calls.filter (·.phase = phase)).filterMap (Call.text? dialect) := by
    simp [hsplit]
  obtain ⟨call, -, hcall⟩ := List.mem_filterMap.1 hmem
  obtain ⟨front, c, hfront, hc⟩ := Call.exists_text?_eq hcall
  refine ⟨(String.join texts).toList ++ front, c, ?_, hc⟩
  rw [phaseText, hsplit, List.concat_eq_append, String.join_append, String.toList_append,
    String.join_cons, String.toList_append, hfront]
  simp

/-- **A script is rendered phase by phase.** Its text depends on the order of the calls within each
phase only. It is made of the texts of the phases, in the order in which scripts run, with a line
feed between two that are not empty; since these end with one line feed, that is one blank line. The
text of a phase holds what each call that appends to it leaves, if anything, in the order of the
calls. -/
theorem render_phase_by_phase (dialect : Dialect) :
    (∀ calls others : List Call,
      (∀ phase, calls.filter (·.phase = phase) = others.filter (·.phase = phase)) →
        (run { dialect } calls).render = (run { dialect } others).render) ∧
    ∀ calls : List Call,
      (run { dialect } calls).render =
        "\n".intercalate ((Phase.all.map (phaseText dialect calls)).filter (· ≠ "")) ∧
      ∀ phase, phaseText dialect calls phase ≠ "" →
        ∃ front c, (phaseText dialect calls phase).toList = front ++ [c, '\n'] ∧
          Text.isBlank c = false := by
  refine ⟨fun calls others hsame => ?_, fun calls =>
    ⟨render_run dialect calls, fun phase hne => exists_phaseText_eq hne⟩⟩
  have hphases : phaseText dialect calls = phaseText dialect others := by
    funext phase
    rw [phaseText, phaseText, hsame]
  rw [render_run, render_run, hphases]

namespace Interleaved

/-- The end of a transaction is appended before its start, and a text of the user behind them. -/
def calls : List Call :=
  [.push .body "CREATE TABLE t (a integer);", .push .closing "COMMIT TRANSACTION",
    .push .opening "START TRANSACTION", .push .body "   ", .pushVerbatim .body "-- seed\n\n"]

/-- The same calls, phase by phase. -/
def inOrder : List Call :=
  [.push .opening "START TRANSACTION", .push .body "CREATE TABLE t (a integer);", .push .body "   ",
    .pushVerbatim .body "-- seed\n\n", .push .closing "COMMIT TRANSACTION"]

/-- Both are rendered alike, without the blank statement. -/
theorem rendered_in_order :
    (∀ phase, calls.filter (·.phase = phase) = inOrder.filter (·.phase = phase)) ∧
      (run { dialect := .postgres } calls).render = (run { dialect := .postgres } inOrder).render ∧
      (run { dialect := .postgres } inOrder).render =
        "START TRANSACTION;\n\nCREATE TABLE t (a integer);\n-- seed\n\nCOMMIT TRANSACTION;\n" := by
  have hsame : ∀ phase, calls.filter (·.phase = phase) = inOrder.filter (·.phase = phase) := by
    intro phase
    cases phase <;> rfl
  obtain ⟨halike, htext⟩ := render_phase_by_phase .postgres
  exact ⟨hsame, halike calls inOrder hsame, (htext inOrder).1.trans (by decide +kernel)⟩

end Interleaved

end Script

end SchemaMigration
