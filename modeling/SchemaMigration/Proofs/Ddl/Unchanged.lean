import Mathlib.Data.List.Perm.Basic
import Mathlib.Data.List.Nodup
import Mathlib.Data.String.Basic
import SchemaMigration.Ddl.Generator
import SchemaMigration.Proofs.Ddl.Postgres.Attributes
import SchemaMigration.Proofs.Object.RoundTrip

/-!
# What an alteration leaves alone

An object that needs no statement to come from an old definition to a new one is written in the same
way by both, for every kind of object but roles: each attribute that a definition shows is one that
the alteration compares. The exceptions are attributes whose removal has no clause
(`Dialect.Overlooks`): the start of a sequence, its data type in PostgreSQL, and labels of a
PostgreSQL enumeration that come more than once. There, and only there, an unchanged object would be
created differently (`Dialect.create_eq_iff_of_unchanged`).
-/

namespace SchemaMigration

/-- Definitions that differ in a way for which there is no clause. -/
def Dialect.Overlooks (dialect : Dialect) : Definition → Definition → Prop
  | .sequence old, .sequence new =>
    (dialect ≠ .clickHouse ∧ old.start.isSome ∧ new.start.isNone) ∨
      (dialect = .postgres ∧ old.dataType.isSome ∧ new.dataType.isNone)
  | .type old, .type new => dialect = .postgres ∧ old.labels ≠ new.labels
  | _, _ => False

/-- Nothing changes exactly if there is nothing to do. -/
theorem Alteration.ofChanges?_eq_unchanged {changes : Option (List InPlaceChange)} :
    Alteration.ofChanges? changes = .unchanged ↔ changes = some [] := by
  cases changes with
  | none => simp [Alteration.ofChanges?]
  | some found =>
    cases found with
    | nil => simp [Alteration.ofChanges?, Alteration.ofChanges]
    | cons change rest =>
      simp only [Alteration.ofChanges?, Alteration.ofChanges, List.isEmpty_cons, Bool.false_eq_true,
        if_false]
      split <;> simp

/-- Nothing is done exactly if nothing is done about the definition or besides. -/
theorem Alteration.ofChanges?_append_eq_unchanged {changes : Option (List InPlaceChange)}
    {others : List String} :
    Alteration.ofChanges? (changes.map fun found =>
        found ++ others.map fun sql => (⟨sql, false⟩ : InPlaceChange)) = .unchanged ↔
      changes = some [] ∧ others = [] := by
  rw [Alteration.ofChanges?_eq_unchanged, Option.map_eq_some_iff]
  constructor
  · rintro ⟨found, rfl, hnil⟩
    simpa using hnil
  · rintro ⟨rfl, rfl⟩
    exact ⟨[], rfl, rfl⟩

/-! ## Storage parameters -/

/-- Sorted storage parameters of which none is set and none is gone are the same. -/
theorem Ddl.options_eq {old new : List (String × String)} (hold : Codec.Sorted old)
    (hnew : Codec.Sorted new) (hset : Ddl.setOptions old new = [])
    (hgone : Ddl.goneOptions old new = []) : old = new := by
  have hreached := options_reached hold hnew
  rw [hset, hgone] at hreached
  simpa [Codec.insertAll] using hreached

/-! ## Texts of many pieces -/

namespace Ddl

/-- Fewer pieces make a shorter text, if none is empty. -/
theorem length_join_lt {few many : List String} (h : few.Sublist many) (hne : few ≠ many)
    (hpieces : ∀ piece ∈ many, piece ≠ "") :
    (String.join few).length < (String.join many).length := by
  have hlonger : few.length < many.length :=
    Nat.lt_of_le_of_ne h.length_le fun heq => hne (h.eq_of_length heq)
  clear hne
  induction h with
  | slnil => cases hlonger
  | @cons few many piece h ih =>
    have hpos : 0 < piece.length :=
      Nat.pos_of_ne_zero fun h0 => hpieces piece List.mem_cons_self (String.length_eq_zero_iff.1 h0)
    rw [String.join_cons, String.length_append]
    rcases Nat.lt_or_ge few.length many.length with hlt | hge
    · have := ih (fun p hp => hpieces p (List.mem_cons_of_mem _ hp)) hlt
      omega
    · rw [h.eq_of_length_le hge]
      omega
  | cons_cons piece h ih =>
    have := ih (fun p hp => hpieces p (List.mem_cons_of_mem _ hp)) (by simpa using hlonger)
    rw [String.join_cons, String.join_cons, String.length_append, String.length_append]
    omega

/-- Some clauses, each behind a text that is not empty, make another text than all of them. -/
theorem join_map_ne {lead : String} {few many : List String} (hlead : lead ≠ "")
    (h : few.Sublist many) (hne : few ≠ many) :
    String.join (few.map (lead ++ ·)) ≠ String.join (many.map (lead ++ ·)) := by
  intro heq
  have hinj : Function.Injective (lead ++ ·) := fun a b hab => String.append_right_inj lead |>.1 hab
  refine Nat.lt_irrefl _ (heq ▸ length_join_lt (h.map _) (fun hmap => hne ?_) fun piece hin => ?_)
  · exact hinj.list_map hmap
  · obtain ⟨clause, -, rfl⟩ := List.mem_map.1 hin
    simp [hlead]

/-- A list is its pieces with the separator in front of each, but for the first separator. -/
theorem append_join {sep : String} : ∀ {pieces : List String}, pieces ≠ [] →
    sep ++ Text.join sep pieces = String.join (pieces.map (sep ++ ·))
  | [piece], _ => by simp [Text.join]
  | piece :: next :: rest, _ => by
    rw [Text.join, String.intercalate_cons_of_ne_nil (by simp), List.map_cons, String.join_cons,
      ← append_join (by simp), Text.join, String.append_assoc, String.append_assoc]

/-! ## Sequences -/

/-- The clauses of a sequence that state its data type and its start. -/
def sequenceLead (sequence : SequenceDefinition) : List String :=
  (sequence.dataType.map ("AS " ++ ·)).toList ++
    (sequence.start.map ("START WITH " ++ integer ·)).toList

/-- A sequence without its data type and its start. -/
def sequenceRest (sequence : SequenceDefinition) : SequenceDefinition :=
  { sequence with dataType := none, start := none }

/-- A sequence stays but for a data type or a start that it may lose. -/
structure Loses (old new : SequenceDefinition) : Prop where
  rest : sequenceRest old = sequenceRest new
  dataType : new.dataType = old.dataType ∨ new.dataType = none
  start : new.start = old.start ∨ new.start = none

variable {old new : SequenceDefinition}

/-- A sequence that loses neither stays the same. -/
theorem Loses.eq (h : Loses old new) (hstart : ¬ (old.start.isSome ∧ new.start.isNone))
    (hdataType : ¬ (old.dataType.isSome ∧ new.dataType.isNone)) : old = new := by
  obtain ⟨hrest, htype', hstart'⟩ := h
  obtain ⟨dataType, start, _⟩ := old
  obtain ⟨dataType', start', _⟩ := new
  cases dataType <;> cases dataType' <;> cases start <;> cases start' <;> simp_all [sequenceRest]

/-- A sequence that loses something has fewer clauses at the start. -/
theorem Loses.lead_sublist (h : Loses old new) : (sequenceLead new).Sublist (sequenceLead old) := by
  have hclauses : ∀ {α : Type} {before after : Option α} (clause : α → String),
      after = before ∨ after = none →
        (after.map clause).toList.Sublist (before.map clause).toList := by
    rintro α before after clause (rfl | rfl)
    · exact .refl _
    · exact List.nil_sublist _
  exact (hclauses _ h.dataType).append (hclauses _ h.start)

/-- A sequence that loses its start or its data type has not all clauses at the start. -/
theorem Loses.lead_ne (h : Loses old new) (hlost : (old.start.isSome ∧ new.start.isNone) ∨
    (old.dataType.isSome ∧ new.dataType.isNone)) : sequenceLead new ≠ sequenceLead old := by
  intro heq
  have hlength := congrArg List.length heq
  obtain ⟨-, htype, hstart⟩ := h
  obtain ⟨dataType, start, _⟩ := old
  obtain ⟨dataType', start', _⟩ := new
  cases dataType <;> cases dataType' <;> cases start <;> cases start' <;> simp_all [sequenceLead]

end Ddl

/-! ## PostgreSQL -/

namespace Ddl.Postgres

variable {old s : Statement} {before : Definition}

/-- A table without changes stays the same. -/
theorem eq_of_tableChanges? {old new : TableDefinition} (hold : Codec.Sorted old.options)
    (hnew : Codec.Sorted new.options) (h : tableChanges? old new = some []) : old = new := by
  unfold tableChanges? at h
  split at h
  case isFalse => cases h
  case isTrue hkept =>
    simp only [Bool.and_eq_true, decide_eq_true_eq] at hkept
    simp only [Option.some.injEq, List.append_eq_nil_iff, ite_eq_right_iff, ite_eq_left_iff,
      List.cons_ne_nil, imp_false, not_not, ne_eq, List.isEmpty_iff] at h
    have hoptions := options_eq hold hnew h.1.2 h.2
    cases old
    cases new
    simp_all

/-- A column without changes stays the same. -/
theorem eq_of_columnChanges {old new : ColumnDefinition} (h : columnChanges old new = []) :
    old = new := by
  have hreached := foldl_columnChanges old new
  rwa [h] at hreached

/-- An index that keeps its tablespace and does not differ otherwise stays the same. -/
theorem eq_of_indexTablespace? {old new : IndexDefinition}
    (h : indexTablespace? old new = some none) : old = new := by
  unfold indexTablespace? at h
  split at h
  · next hrest =>
    split at h
    · next htablespace => rw [← hrest, ← htablespace]
    · cases h
  · cases h

/-- A statement that is left out has no clauses. -/
theorem eq_nil_of_oneStatement {lead : String} {clauses : List String}
    (h : oneStatement lead clauses = []) : clauses = [] := by
  unfold oneStatement at h
  split at h
  · next hempty => exact List.isEmpty_iff.1 hempty
  · cases h

/-- A sequence without changes stays but for what it may lose. -/
theorem loses_of_sequenceClauses {old new : SequenceDefinition}
    (h : sequenceClauses (some old) new = []) : Loses old new := by
  obtain ⟨dataType, start, _⟩ := old
  obtain ⟨dataType', start', _⟩ := new
  cases dataType' <;> cases start' <;> simp_all [sequenceClauses] <;>
    exact ⟨by simp_all [sequenceRest], by simp_all, by simp_all⟩

/-- Labels of an enumeration to which none is added are among the old ones. -/
theorem mem_of_addedLabels {old new : List String} (h : addedLabels old new = []) :
    ∀ label ∈ new, label ∈ old := by
  induction new with
  | nil => simp
  | cons label rest ih =>
    unfold addedLabels at h
    split at h
    · next hin =>
      rintro other (_ | ⟨_, hother⟩)
      · simpa using hin
      · exact ih h other hother
    · cases h

/-- Definitions that are written in the same way. -/
inductive Alike : Definition → Definition → Prop
  | refl (definition : Definition) : Alike definition definition
  /-- Nothing but the labels of an enumeration is written. -/
  | labels {old new : TypeDefinition} (hold : old.variant = .enum) (hnew : new.variant = .enum)
      (h : old.labels = new.labels) : Alike (.type old) (.type new)

/-- A definition without changes is written in the same way, or has lost something. -/
theorem alike_of_definitionChanges? (hrole : s.definition.kind ≠ .role) (hold : before.Sorted)
    (hnew : s.definition.Sorted) (h : definitionChanges? before s = some [])
    (hoverlooks : ¬ Dialect.postgres.Overlooks before s.definition) :
    Alike before s.definition := by
  have hmap : ∀ {α : Type} {found : Option (List α)} {f : α → InPlaceChange},
      found.map (fun parts => parts.map f) = some [] → found = some [] := by
    intro α found f h
    obtain ⟨parts, rfl, hnil⟩ := Option.map_eq_some_iff.1 h
    rw [List.map_eq_nil_iff.1 hnil]
  unfold definitionChanges? at h
  split at h
  case h_1 hdefinition => rw [hdefinition]; exact .refl _
  case h_2 hdefinition => exact absurd (congrArg Definition.kind hdefinition) hrole
  case h_3 old new hdefinition =>
    rw [hdefinition, eq_of_tableChanges? (hold old rfl) (hnew new hdefinition) (hmap h)]
    exact .refl _
  case h_4 old new hdefinition =>
    rw [hdefinition, eq_of_columnChanges (List.map_eq_nil_iff.1 (Option.some.inj h))]
    exact .refl _
  case h_5 old new hdefinition =>
    obtain ⟨changed, hchanged, hnil⟩ := Option.map_eq_some_iff.1 h
    rw [Option.toList_eq_nil_iff.1 (List.map_eq_nil_iff.1 hnil)] at hchanged
    rw [hdefinition, eq_of_indexTablespace? hchanged]
    exact .refl _
  case h_6 old new hdefinition | h_7 old new hdefinition =>
    have heq : old = new := by
      cases old
      cases new
      simp_all
    rw [hdefinition, heq]
    exact .refl _
  case h_8 old new hdefinition =>
    rw [hdefinition] at hoverlooks ⊢
    have hkept := not_or.1 hoverlooks
    rw [(loses_of_sequenceClauses (eq_nil_of_oneStatement (Option.some.inj h))).eq
      (fun hlost => hkept.1 ⟨by decide, hlost⟩) (fun hlost => hkept.2 ⟨rfl, hlost⟩)]
    exact .refl _
  case h_9 old new hdefinition =>
    rw [hdefinition] at hoverlooks ⊢
    split at h
    · next hvariant =>
      refine .labels hvariant.1 hvariant.2 ?_
      by_contra hlabels
      exact hoverlooks ⟨rfl, hlabels⟩
    · split at h
      · next heq => rw [heq]; exact .refl _
      · cases h
  case h_10 old new hdefinition =>
    obtain ⟨clauses, hfound, hnil⟩ := Option.map_eq_some_iff.1 h
    rw [List.map_eq_nil_iff.1 (eq_nil_of_oneStatement hnil)] at hfound
    rw [hdefinition, ← foldl_policyClauses? hfound]
    exact .refl _
  case h_11 old new hdefinition | h_12 old new hdefinition | h_13 old new hdefinition
      | h_14 old new hdefinition =>
    split at h
    · next heq => rw [hdefinition, heq]; exact .refl _
    · cases h
  case h_15 => cases h

/-- Definitions that are written in the same way are so under the same name. -/
theorem Alike.texts (hid : old.id = s.id) (h : Alike old.definition s.definition) :
    target? old = target? s ∧ (∀ children detached,
      define? old children detached = define? s children detached ∧
        innerComments old children detached = innerComments s children detached) := by
  obtain ⟨id, _, before, _, _, _, _, _⟩ := old
  obtain ⟨id', _, definition, _, _, _, _, _⟩ := s
  obtain rfl : id = id' := hid
  cases h with
  | refl => exact ⟨rfl, fun _ _ => ⟨rfl, rfl⟩⟩
  | labels hold hnew hlabels =>
    simp [target?, define?, innerComments, createType, hold, hnew, hlabels]

/-- Only the database has no target. -/
theorem definition_of_target?_eq_none (h : target? s = none) : s.definition = .database := by
  unfold target? at h
  split at h
  · next hdefinition => exact hdefinition
  all_goals cases h

/-- What is unchanged is written in the same way, unless something was overlooked. -/
theorem create_eq_of_unchanged (hid : old.id = s.id) (howner : old.owner = s.owner)
    (hrole : s.definition.kind ≠ .role) (hold : old.definition.Sorted) (hnew : s.definition.Sorted)
    (h : alter old s = .unchanged)
    (hoverlooks : ¬ Dialect.postgres.Overlooks old.definition s.definition)
    (snapshot : Snapshot) (detached : List ObjectId) :
    create old snapshot detached = create s snapshot detached := by
  obtain ⟨hchanges, hothers⟩ := Alteration.ofChanges?_append_eq_unchanged.1 h
  obtain ⟨-, hcomment⟩ := List.append_eq_nil_iff.1 hothers
  have halike := alike_of_definitionChanges? hrole hold hnew hchanges hoverlooks
  obtain ⟨htarget, htexts⟩ := halike.texts hid
  have howners : ownerStatement? old = ownerStatement? s := by
    unfold ownerStatement?
    rw [howner, htarget, show old.kind = s.kind from congrArg ObjectId.kind hid]
  -- A comment that differs has a statement, except on the database, which is never created.
  have hcomments : presentComment? old = presentComment? s ∨ s.definition = .database := by
    by_cases hsame : old.comment = s.comment
    · simp only [presentComment?, commentStatement?, hsame, htarget, true_or]
    · rw [if_pos hsame, Option.toList_eq_nil_iff, commentStatement?, Option.map_eq_none_iff]
        at hcomment
      exact .inr (definition_of_target?_eq_none hcomment)
  obtain ⟨hdefine, hinner⟩ := htexts (snapshot.children s.id) detached
  simp only [create, hid, hdefine, hinner, howners]
  rcases hcomments with hcomments | hdatabase
  · rw [hcomments]
  · simp [define?, hdatabase]

/-- The clauses of a sequence are those at the start and those of what stays. -/
theorem sequenceClauses_none (sequence : SequenceDefinition) :
    sequenceClauses none sequence =
      sequenceLead sequence ++ sequenceClauses none (sequenceRest sequence) := by
  obtain ⟨dataType, start, increment, minValue, maxValue, cache, cycle⟩ := sequence
  dsimp only [sequenceClauses, sequenceLead, sequenceRest]
  simp only [Option.map_none, ne_eq, reduceCtorEq, not_false_eq_true, decide_true, if_true,
    Option.toList_none, List.nil_append, List.append_assoc]

/-- A clause that only says what is not. -/
def isNegative (clause : String) : Bool :=
  ["NO MINVALUE", "NO MAXVALUE", "NO CYCLE"].contains clause

/-- The clauses at the start of a sequence say what is. -/
theorem filter_sequenceLead (sequence : SequenceDefinition) :
    ((sequenceLead sequence).filter fun clause => !isNegative clause) = sequenceLead sequence := by
  have hnegative : ∀ clause ∈ ["NO MINVALUE", "NO MAXVALUE", "NO CYCLE"],
      "NO ".toList <+: clause.toList := by decide
  have hkept : ∀ {lead rest : String}, Apart "NO " lead → (!isNegative (lead ++ rest)) = true := by
    intro lead rest hapart
    rw [Bool.not_eq_true', ← Bool.not_eq_true, isNegative, List.contains_iff_mem]
    exact fun hin => hapart.not_prefix (hnegative _ hin)
  refine List.filter_eq_self.2 fun clause hclause => ?_
  rcases List.mem_append.1 hclause with hin | hin
  · obtain ⟨dataType, -, rfl⟩ := Option.map_eq_some_iff.1 (Option.mem_toList.1 hin)
    exact hkept (by decide)
  · obtain ⟨start, -, rfl⟩ := Option.map_eq_some_iff.1 (Option.mem_toList.1 hin)
    exact hkept (by decide)

/-- A sequence is created with the clauses at the start and those of what stays that say what is. -/
theorem createSequence_eq (s : Statement) (sequence : SequenceDefinition) :
    createSequence s sequence = "CREATE SEQUENCE " ++ qualified s.id ++
      String.join ((sequenceLead sequence ++
        (sequenceClauses none (sequenceRest sequence)).filter fun clause =>
          !isNegative clause).map ("\n\t" ++ ·)) := by
  rw [← filter_sequenceLead, ← List.filter_append, ← sequenceClauses_none]
  rfl

/-- A sequence that has lost something is written differently. -/
theorem createSequence_ne {old new : SequenceDefinition} {a b : Statement} (hid : a.id = b.id)
    (h : Loses old new) (hne : sequenceLead new ≠ sequenceLead old) :
    createSequence a old ≠ createSequence b new := by
  intro heq
  rw [createSequence_eq, createSequence_eq, hid, h.rest, String.append_right_inj] at heq
  refine join_map_ne (by decide) (h.lead_sublist.append_right _) (fun hsame => hne ?_) heq.symm
  exact List.append_cancel_right hsame

/-- An enumeration to which no label is added although the labels differ is written differently. -/
theorem createEnum_ne {old new : List String} (h : labelAdditions? old new = some [])
    (hne : old ≠ new) :
    Text.commaList (old.map literal) ≠ Text.commaList (new.map literal) := by
  unfold labelAdditions? at h
  split at h
  case isFalse => cases h
  case isTrue hsublist =>
    have hsub := List.isSublist_iff_sublist.1 hsublist
    have hin := mem_of_addedLabels (Option.some.inj h)
    have hnew : new ≠ [] := by
      rintro rfl
      exact hne (List.sublist_nil.1 hsub)
    have hold : old ≠ [] := by
      rintro rfl
      obtain ⟨label, hlabel⟩ := List.exists_mem_of_ne_nil new hnew
      exact absurd (hin label hlabel) List.not_mem_nil
    intro heq
    have hjoin := congrArg (", " ++ ·) heq
    simp only [Text.commaList] at hjoin
    rw [append_join (by simpa using hold), append_join (by simpa using hnew)] at hjoin
    refine join_map_ne (by decide) (hsub.map literal) (fun hmap => hne ?_) hjoin
    have hlength := congrArg List.length hmap
    rw [List.length_map, List.length_map] at hlength
    exact hsub.eq_of_length hlength

/-- What was overlooked is written differently, if the object exists. -/
theorem create_ne_of_overlooks (hid : old.id = s.id) (h : alter old s = .unchanged)
    (hoverlooks : Dialect.postgres.Overlooks old.definition s.definition) (snapshot : Snapshot)
    (detached : List ObjectId) : create old snapshot detached ≠ create s snapshot detached := by
  obtain ⟨hchanges, -⟩ := Alteration.ofChanges?_append_eq_unchanged.1 h
  unfold Dialect.Overlooks at hoverlooks
  split at hoverlooks
  case h_1 before after hbefore hafter =>
    have hloses : Loses before after := by
      simp only [hbefore, hafter, definitionChanges?, oneStatement] at hchanges
      refine loses_of_sequenceClauses (List.isEmpty_iff.1 ?_)
      by_contra hclauses
      simp [hclauses] at hchanges
    intro heq
    simp only [create, define?, hbefore, hafter, List.cons_append, List.cons.injEq] at heq
    refine createSequence_ne hid hloses (hloses.lead_ne ?_) heq.1
    exact hoverlooks.imp And.right And.right
  case h_2 before after hbefore hafter =>
    obtain ⟨-, hne⟩ := hoverlooks
    simp only [hbefore, hafter, definitionChanges?] at hchanges
    split at hchanges
    · next hvariant =>
      obtain ⟨additions, hadditions, hnil⟩ := Option.map_eq_some_iff.1 hchanges
      rw [List.map_eq_nil_iff.1 hnil] at hadditions
      intro heq
      simp only [create, define?, hbefore, hafter, createType, hvariant.1, hvariant.2, hid,
        List.cons_append, List.cons.injEq, String.append_right_inj, String.append_left_inj] at heq
      exact createEnum_ne hadditions hne heq.1
    · split at hchanges
      · next heq => exact absurd (congrArg TypeDefinition.labels heq) hne
      · cases hchanges
  case h_3 => exact hoverlooks.elim

end Ddl.Postgres

/-! ## MS SQL -/

namespace Ddl.MsSql

variable {old s : Statement} {before : Definition}

/-- A column without changes stays the same. -/
theorem eq_of_columnChanges {id : ObjectId} {old new : ColumnDefinition}
    (h : columnChanges id old new = []) : old = new := by
  obtain ⟨_, _, default, _⟩ := old
  obtain ⟨_, _, default', _⟩ := new
  cases default <;> cases default' <;> simp_all [columnChanges]

/-- A sequence without changes stays but for what it may lose. -/
theorem loses_of_sequenceClauses {old new : SequenceDefinition}
    (htype : old.dataType = new.dataType)
    (h : sequenceClauses (some old) new = []) : Loses old new := by
  obtain ⟨dataType, start, _⟩ := old
  obtain ⟨dataType', start', _⟩ := new
  cases start' <;> simp_all [sequenceClauses] <;>
    exact ⟨by simp_all [sequenceRest], by simp_all, by simp_all⟩

/-- A definition without changes stays the same, or a sequence has lost something. -/
theorem definition_eq_of_definitionChanges? (h : definitionChanges? before s = some [])
    (hoverlooks : ¬ Dialect.msSql.Overlooks before s.definition) : before = s.definition := by
  have hmodule : ∀ {same : Prop} [Decidable same] {invalidating : Bool},
      (module? s).isSome → (if same then [] else redefinition s invalidating) = [] → same := by
    intro same _ invalidating hsome h
    by_contra hne
    obtain ⟨definition, hdefinition⟩ := Option.isSome_iff_exists.1 hsome
    simp [hne, redefinition, hdefinition] at h
  unfold definitionChanges? at h
  split at h
  case h_1 hdefinition => exact hdefinition.symm
  case h_2 old new hdefinition =>
    unfold tableChanges? at h
    split at h
    · cases h
    · next hkept =>
      split at h
      · next hoptions =>
        rw [hdefinition, ← not_not.1 (not_or.1 hkept).1, ← hoptions]
      · cases h
  case h_3 old new hdefinition =>
    rw [hdefinition, eq_of_columnChanges (Option.some.inj h)]
  case h_4 old new hdefinition | h_5 old new hdefinition =>
    split at h
    · cases h
    · split at h
      · next heq => rw [hdefinition, heq]
      · simp [redefinition, module?, hdefinition] at h
  case h_6 old new hdefinition | h_7 old new hdefinition =>
    rw [hdefinition, hmodule (by simp [module?, hdefinition]) (Option.some.inj h)]
  case h_8 old new hdefinition =>
    rw [hdefinition] at hoverlooks ⊢
    split at h
    · cases h
    · next htype =>
      split at h
      · next hclauses =>
        have hkept := not_or.1 hoverlooks
        have hsame : old.dataType = new.dataType := not_not.1 htype
        rw [(loses_of_sequenceClauses hsame hclauses).eq
          (fun hlost => hkept.1 ⟨by decide, hlost⟩)
          (by cases hnew : new.dataType <;> simp [hsame, hnew])]
      · cases h
  case h_9 old new hdefinition | h_10 old new hdefinition | h_11 old new hdefinition =>
    split at h
    · next heq => rw [hdefinition, heq]
    · cases h
  case h_12 => cases h

/-- An alteration that does nothing finds nothing to do about definition, owner and comment. -/
theorem alter_eq_unchanged (h : alter old s = .ok .unchanged) :
    definitionChanges? old.definition s = some [] ∧
      (old.comment ≠ s.comment → commentStatement? old.comment s = none) := by
  unfold alter at h
  split at h
  · cases h
  · obtain ⟨hchanges, hothers⟩ :=
      Alteration.ofChanges?_append_eq_unchanged.1 (Except.ok.inj h)
    obtain ⟨-, hcomment⟩ := List.append_eq_nil_iff.1 hothers
    refine ⟨hchanges, fun hne => ?_⟩
    rwa [if_pos hne, Option.toList_eq_nil_iff] at hcomment

/-- A comment that differs has a statement, unless the object cannot carry one. -/
theorem propertyLevels?_eq_none {before : Option String} (h : commentStatement? before s = none)
    (hne : before ≠ s.comment) : propertyLevels? s = none := by
  cases hlevels : propertyLevels? s with
  | none => rfl
  | some levels =>
    cases before <;> cases hcomment : s.comment <;> simp_all [commentStatement?]

/-- The same definition under the same name is written in the same way. -/
theorem written_congr (hid : old.id = s.id) (h : old.definition = s.definition) :
    propertyLevels? old = propertyLevels? s ∧ ∀ children detached,
      define? old children detached = define? s children detached ∧
        columnComments old children = columnComments s children := by
  obtain ⟨id, _, definition, _, _, _, _, _⟩ := old
  obtain ⟨id', _, definition', _, _, _, _, _⟩ := s
  obtain rfl : id = id' := hid
  obtain rfl : definition = definition' := h
  exact ⟨rfl, fun _ _ => ⟨rfl, rfl⟩⟩

/-- What is unchanged is written in the same way, unless something was overlooked. -/
theorem create_eq_of_unchanged (hid : old.id = s.id) (howner : old.owner = s.owner)
    (h : alter old s = .ok .unchanged)
    (hoverlooks : ¬ Dialect.msSql.Overlooks old.definition s.definition)
    (snapshot : Snapshot) (detached : List ObjectId) :
    create old snapshot detached = create s snapshot detached := by
  obtain ⟨hchanges, hcomment⟩ := alter_eq_unchanged h
  have hdefinition := definition_eq_of_definitionChanges? hchanges hoverlooks
  have hkind : old.kind = s.kind := congrArg ObjectId.kind hid
  obtain ⟨hlevels, htexts⟩ := written_congr hid hdefinition
  obtain ⟨hdefine, hcolumns⟩ := htexts (snapshot.children s.id) detached
  have howners : ownerStatement? old = ownerStatement? s := by
    simp only [ownerStatement?, hkind, howner, hid]
  have hcomments : commentStatement? none old = commentStatement? none s := by
    by_cases hsame : old.comment = s.comment
    · simp only [commentStatement?, hlevels, hsame]
    · have hnone := propertyLevels?_eq_none (hcomment hsame) hsame
      simp only [commentStatement?, hlevels, hnone, Option.bind_eq_bind, Option.bind_none]
  simp only [create, hid, hkind, hdefine, hcolumns, howners, hcomments]

/-- The clauses of a sequence are those at the start and those of what stays. -/
theorem sequenceClauses_none (sequence : SequenceDefinition) :
    sequenceClauses none sequence =
      sequenceLead sequence ++ sequenceClauses none (sequenceRest sequence) := by
  obtain ⟨dataType, start, increment, minValue, maxValue, cache, cycle⟩ := sequence
  dsimp only [sequenceClauses, sequenceLead, sequenceRest]
  simp only [Option.map_none, Option.toList_none, List.nil_append, List.append_assoc]

/-- The statement that creates a sequence comes first. -/
theorem head_create_sequence {sequence : SequenceDefinition}
    (hsupports : Dialect.msSql.supports s.kind = true) (h : s.definition = .sequence sequence)
    (snapshot : Snapshot) (detached : List ObjectId) :
    ∃ rest, create s snapshot detached = .ok (("CREATE SEQUENCE " ++ qualified s.id ++
      String.join ((sequenceClauses none sequence).map (" " ++ ·))) :: rest) := by
  simp only [create, define?, hsupports, h, Bool.not_true, Bool.false_eq_true, if_false]
  exact ⟨_, rfl⟩

/-- What was overlooked is written differently. -/
theorem create_ne_of_overlooks (hid : old.id = s.id) (h : alter old s = .ok .unchanged)
    (hoverlooks : Dialect.msSql.Overlooks old.definition s.definition) (snapshot : Snapshot)
    (detached : List ObjectId) : create old snapshot detached ≠ create s snapshot detached := by
  obtain ⟨hchanges, -⟩ := alter_eq_unchanged h
  unfold Dialect.Overlooks at hoverlooks
  split at hoverlooks
  case h_1 before after hbefore hafter =>
    have hlost := hoverlooks.elim And.right fun htype => absurd htype.1 (by decide)
    have hloses : Loses before after := by
      simp only [hbefore, hafter, definitionChanges?] at hchanges
      split at hchanges
      · cases hchanges
      · next htype =>
        split at hchanges
        · next hclauses => exact loses_of_sequenceClauses (not_not.1 htype) hclauses
        · cases hchanges
    have hsupports : Dialect.msSql.supports s.kind = true := by
      unfold alter at h
      split at h
      · cases h
      · next hkind => simpa using hkind
    have hkind : old.kind = s.kind := congrArg ObjectId.kind hid
    obtain ⟨_, hold⟩ := head_create_sequence (hkind ▸ hsupports) hbefore snapshot detached
    obtain ⟨_, hnew⟩ := head_create_sequence hsupports hafter snapshot detached
    intro heq
    rw [hold, hnew] at heq
    have htext := (List.cons.inj (Except.ok.inj heq)).1
    rw [hid, sequenceClauses_none before, sequenceClauses_none after, hloses.rest,
      String.append_right_inj] at htext
    refine join_map_ne (by decide) (hloses.lead_sublist.append_right _) (fun hsame => ?_) htext.symm
    exact hloses.lead_ne (.inl hlost) (List.append_cancel_right hsame)
  case h_2 => exact absurd hoverlooks.1 (by decide)
  case h_3 => exact hoverlooks.elim

end Ddl.MsSql

/-! ## ClickHouse -/

namespace Ddl.ClickHouse

variable {old s : Statement} {before : Definition}

/-- A table without changes stays the same. -/
theorem eq_of_tableChanges? {old new : TableDefinition} (hold : Codec.Sorted old.options)
    (hnew : Codec.Sorted new.options) (h : tableChanges? s old new = some []) : old = new := by
  unfold tableChanges? at h
  split at h
  case isTrue => cases h
  case isFalse hkept =>
    simp only [Option.some.injEq, List.map_eq_nil_iff, List.append_eq_nil_iff, ite_eq_right_iff,
      ite_eq_left_iff, List.cons_ne_nil, imp_false, not_not, ne_eq, List.isEmpty_iff] at h
    have hoptions := options_eq hold hnew h.1.2 h.2
    cases old
    cases new
    simp_all

/-- A column without changes stays the same. -/
theorem eq_of_columnChanges? {old new : ColumnDefinition}
    (h : columnChanges? s old new = some []) : old = new := by
  unfold columnChanges? at h
  cases old
  cases new
  simp_all

/-- A definition without changes stays the same. -/
theorem definition_eq_of_definitionChanges? (hold : before.Sorted) (hnew : s.definition.Sorted)
    (h : definitionChanges? before s = some []) : before = s.definition := by
  unfold definitionChanges? at h
  split at h
  case h_1 hdefinition => exact hdefinition.symm
  case h_2 old new hdefinition =>
    split at h
    · next heq => rw [hdefinition, heq]
    · cases h
  case h_3 old new hdefinition | h_7 old new hdefinition =>
    split at h
    · next heq => rw [hdefinition, heq]
    · cases h
  case h_4 old new hdefinition =>
    rw [hdefinition, eq_of_tableChanges? (hold old rfl) (hnew new hdefinition) h]
  case h_5 old new hdefinition => rw [hdefinition, eq_of_columnChanges? h]
  case h_6 old new hdefinition =>
    split at h
    · next heq => rw [hdefinition, heq]
    · split at h <;> cases h
  case h_8 => cases h

/-- The comment stands in the definition of those objects only for which it has a statement. -/
theorem define?_congr (htyped : s.definition.kind = s.kind) (hid : old.id = s.id)
    (h : old.definition = s.definition)
    (hcomment : old.comment ≠ s.comment → commentStatement? s = none)
    (children : List Statement) (detached : List ObjectId) :
    define? old children detached = define? s children detached := by
  obtain ⟨id, _, definition, _, comment, _, _, _⟩ := old
  obtain ⟨id', _, definition', _, comment', _, _, _⟩ := s
  obtain rfl : id = id' := hid
  obtain rfl : definition = definition' := h
  by_cases hsame : comment = comment'
  · subst hsame
    rfl
  · have hnone := hcomment hsame
    unfold commentStatement? at hnone
    rw [← htyped] at hnone
    cases definition <;> cases hnone <;> rfl

/-- What is unchanged is written in the same way. -/
theorem create_eq_of_unchanged (htyped : s.definition.kind = s.kind) (hid : old.id = s.id)
    (hold : old.definition.Sorted) (hnew : s.definition.Sorted)
    (h : alter old s = .ok .unchanged) (snapshot : Snapshot) (detached : List ObjectId) :
    create old snapshot detached = create s snapshot detached := by
  have hkind : old.kind = s.kind := congrArg ObjectId.kind hid
  unfold alter at h
  split at h
  case isTrue => cases h
  case isFalse hsupports =>
    obtain ⟨hchanges, hcomment⟩ :=
      Alteration.ofChanges?_append_eq_unchanged.1 (Except.ok.inj h)
    have hdefinition := definition_eq_of_definitionChanges? hold hnew hchanges
    have hdefine := define?_congr htyped hid hdefinition (fun hne => by
      rwa [if_pos hne, Option.toList_eq_nil_iff] at hcomment) (snapshot.children s.id) detached
    simp only [create, hid, hkind, hdefine]

end Ddl.ClickHouse

/-! ## All dialects -/

/-- An object other than a role for whose new definition there is nothing to do is created by the
same statements from both definitions, whatever else is there, exactly if they differ in nothing
for which there is no clause. -/
theorem Dialect.create_eq_iff_of_unchanged {dialect : Dialect} {old new : Statement}
    (hid : old.id = new.id) (htyped : new.definition.kind = new.kind) (hrole : new.kind ≠ .role)
    (howner : old.owner = new.owner) (holdSorted : old.definition.Sorted)
    (hnewSorted : new.definition.Sorted) (h : dialect.alter old new = .ok .unchanged) :
    (∀ snapshot detached,
        dialect.create old snapshot detached = dialect.create new snapshot detached) ↔
      ¬ dialect.Overlooks old.definition new.definition := by
  have hrole' : new.definition.kind ≠ .role := htyped ▸ hrole
  cases dialect with
  | postgres =>
    have h : Ddl.Postgres.alter old new = .unchanged := Except.ok.inj h
    refine ⟨fun hsame hoverlooks => ?_, fun hoverlooks snapshot detached => ?_⟩
    · exact Ddl.Postgres.create_ne_of_overlooks hid h hoverlooks default []
        (Except.ok.inj (hsame default []))
    · exact congrArg Except.ok (Ddl.Postgres.create_eq_of_unchanged hid howner hrole' holdSorted
        hnewSorted h hoverlooks snapshot detached)
  | msSql =>
    refine ⟨fun hsame hoverlooks => ?_, fun hoverlooks snapshot detached => ?_⟩
    · exact Ddl.MsSql.create_ne_of_overlooks hid h hoverlooks default [] (hsame default [])
    · exact Ddl.MsSql.create_eq_of_unchanged hid howner h hoverlooks snapshot detached
  | clickHouse =>
    have hnone : ¬ Dialect.clickHouse.Overlooks old.definition new.definition := by
      unfold Dialect.Overlooks
      split
      · simp only [ne_eq, not_true_eq_false, reduceCtorEq, false_and, or_self, not_false_eq_true]
      · exact fun h => absurd h.1 (by decide)
      · exact not_false
    exact ⟨fun _ => hnone, fun _ => Ddl.ClickHouse.create_eq_of_unchanged htyped hid holdSorted
      hnewSorted h⟩

/-- A sequence of numbers from a start on, or from none. -/
def Statement.counter (start : Option Int64) : Statement where
  id := ⟨.sequence, ["app", "numbers"]⟩
  parent := some ⟨.schema, ["app"]⟩
  definition := .sequence { start, increment := some 2 }

/-- A sequence that keeps its start is unchanged, and created by the same statements. -/
theorem Dialect.create_eq_iff_of_unchanged_counter :
    Dialect.postgres.alter (.counter (some 5))
        { Statement.counter (some 5) with stated := [.database] } = .ok .unchanged ∧
      ∀ snapshot detached,
        Dialect.postgres.create (.counter (some 5)) snapshot detached =
          Dialect.postgres.create { Statement.counter (some 5) with stated := [.database] } snapshot
            detached := by
  have hunchanged : Dialect.postgres.alter (.counter (some 5))
      { Statement.counter (some 5) with stated := [.database] } = .ok .unchanged := by
    decide +kernel
  refine ⟨hunchanged, (Dialect.create_eq_iff_of_unchanged rfl rfl ?_ rfl ?_ ?_ hunchanged).2 ?_⟩
  · decide
  · exact fun _ h => by cases h
  · exact fun _ h => by cases h
  · simp [Dialect.Overlooks, Statement.counter]

/-- A sequence whose start is removed is unchanged, but created by another statement. -/
theorem Dialect.exists_unchanged_created_differently :
    ¬ ∀ (dialect : Dialect) (old new : Statement) (snapshot : Snapshot) (detached : List ObjectId),
      old.id = new.id → old.definition.kind = old.kind → new.definition.kind = new.kind →
        new.kind ≠ .role → old.owner = new.owner → dialect.alter old new = .ok .unchanged →
        dialect.create old snapshot detached = dialect.create new snapshot detached := by
  intro hall
  have hsame := hall .postgres (.counter (some 5)) (.counter none) ⟨.postgres, [], []⟩ [] rfl rfl
    rfl
    (by decide) rfl (by decide +kernel)
  exact absurd hsame (by decide +kernel)

end SchemaMigration
