import Mathlib.Data.List.Basic
import Mathlib.Data.List.Pairwise
import SchemaMigration.Selection.Regex

/-!
# What regular expressions match

An expression matches a piece of a text between what stands before it and what stands behind it,
which is what the anchors look at (`Regex.Matches`). The search goes through the text once and keeps
the rests of the expression that may still follow: one of the rests behind a character matches what
follows exactly if the expression matches the character and what follows (`Regex.matches_cons_iff`),
by induction on the expression. So an expression is found exactly in the texts of which it matches
some piece (`Regex.isMatch_iff`). A text that is escaped is read as its own characters
(`Regex.elements?_escape`).

Characters are equal without regard to case if they fold to one character. Each one folds to the
character that the only range around it tells (`Text.folds_iff`).
-/

namespace SchemaMigration

/-! ## Characters without regard to case -/

namespace Text

/-- A character folds to the one that its range of the table tells, or to itself if there is none.
-/
inductive Folds (c : Char) : Char → Prop
  | listed {r : FoldRange} {d : Char} (mem : r ∈ foldRanges) (inside : r.contains c.toNat = true)
    (moved : (d.toNat : Int) = c.toNat + r.offset) : Folds c d
  | unlisted (outside : ∀ r ∈ foldRanges, r.contains c.toNat = false) : Folds c c

/-- A range ends before another one begins. -/
def FoldRange.Before (r s : FoldRange) : Prop := r.last < s.first ∧ s.first ≤ s.last

instance (r s : FoldRange) : Decidable (r.Before s) := inferInstanceAs (Decidable (_ ∧ _))

instance : Trans FoldRange.Before FoldRange.Before FoldRange.Before where
  trans hrs hst := ⟨Nat.lt_trans hrs.1 (Nat.lt_of_le_of_lt hrs.2 hst.1), hst.2⟩

/-- The ranges of the table ascend. -/
theorem foldRanges_ascend : foldRanges.Pairwise FoldRange.Before :=
  List.isChain_iff_pairwise.1 (by decide +kernel)

/-- What the ranges of the table tell are characters. -/
theorem isValidChar_of_mem_foldRanges : ∀ r ∈ foldRanges, 0 ≤ r.first + r.offset ∧
    (r.last + r.offset < 0xD800 ∨
      0xDFFF < r.first + r.offset ∧ r.last + r.offset < 0x110000) := by
  decide +kernel

/-- A code point of a range is neither before nor behind it. -/
theorem FoldRange.le_and_le_of_contains {r : FoldRange} {n : Nat} (h : r.contains n = true) :
    r.first ≤ n ∧ n ≤ r.last := by
  simp only [contains, Bool.and_eq_true, decide_eq_true_eq] at h
  exact h.1

/-- There is one range around a code point at most. -/
theorem eq_of_contains {r s : FoldRange} {n : Nat} (hr : r ∈ foldRanges) (hs : s ∈ foldRanges)
    (hrn : r.contains n = true) (hsn : s.contains n = true) : r = s := by
  by_contra hne
  have hapart : foldRanges.Pairwise fun r s => r.last < s.first ∨ s.last < r.first :=
    foldRanges_ascend.imp fun h => .inl h.1
  have : Std.Symm fun r s : FoldRange => r.last < s.first ∨ s.last < r.first := ⟨fun _ _ => Or.symm⟩
  have hrn := FoldRange.le_and_le_of_contains hrn
  have hsn := FoldRange.le_and_le_of_contains hsn
  rcases hapart.forall hr hs hne with hlt | hlt <;> omega

/-- A character folds to a single one. -/
theorem folds_iff {c d : Char} : Folds c d ↔ fold c = d := by
  unfold fold
  split
  · next r hfind =>
    have hmem := List.mem_of_find?_eq_some hfind
    have hinside := List.find?_some hfind
    constructor
    · rintro (⟨hother, hcontains, hmoved⟩ | houtside)
      · rw [eq_of_contains hmem hother hinside hcontains, ← hmoved, Int.toNat_natCast,
          Char.ofNat_toNat]
      · rw [houtside r hmem] at hinside
        cases hinside
    · rintro rfl
      refine .listed hmem hinside ?_
      have hvalid := isValidChar_of_mem_foldRanges r hmem
      have hbounds := FoldRange.le_and_le_of_contains hinside
      have hchar : (c.toNat + r.offset).toNat.isValidChar := by
        unfold Nat.isValidChar
        omega
      have hofNat : (Char.ofNat (c.toNat + r.offset).toNat).toNat = (c.toNat + r.offset).toNat := by
        rw [Char.ofNat, dif_pos hchar]
        rfl
      rw [hofNat]
      omega
  · next hfind =>
    have houtside : ∀ r ∈ foldRanges, r.contains c.toNat = false := by
      simpa using List.find?_eq_none.1 hfind
    constructor
    · rintro (⟨hmem, hinside, -⟩ | _)
      · rw [houtside _ hmem] at hinside
        cases hinside
      · rfl
    · rintro rfl
      exact .unlisted houtside

/-- Characters are equal without regard to case if they fold to one. -/
theorem sameFolded_iff_folds {c d : Char} :
    sameFolded c d = true ↔ ∃ e, Folds c e ∧ Folds d e := by
  simp only [sameFolded_iff, folds_iff]
  exact ⟨fun h => ⟨fold d, h, rfl⟩, fun ⟨_, hc, hd⟩ => hc.trans hd.symm⟩

end Text

namespace Regex

/-! ## Matching -/

/-- An expression matches a piece of a text, between what stands before it and what stands behind
it. -/
inductive Matches : Regex → List Char → List Char → List Char → Prop
  | empty {before behind : List Char} : Matches .empty before [] behind
  | start {behind : List Char} : Matches .start [] [] behind
  | stop {before : List Char} : Matches .stop before [] []
  | any {before behind : List Char} {c : Char} (inLine : c ≠ '\n') : Matches .any before [c] behind
  | same {before behind : List Char} {c : Char} {ignoreCase : Bool} :
    Matches (.char c ignoreCase) before [c] behind
  | folded {before behind : List Char} {p c d : Char} (hp : Text.Folds p d) (hc : Text.Folds c d) :
    Matches (.char p true) before [c] behind
  | none {before behind : List Char} {r : Regex} : Matches (.star r) before [] behind
  | more {before first second behind : List Char} {r : Regex}
    (one : Matches r before first (second ++ behind))
    (others : Matches (.star r) (before ++ first) second behind) :
    Matches (.star r) before (first ++ second) behind
  | concat {before first second behind : List Char} {r s : Regex}
    (left : Matches r before first (second ++ behind))
    (right : Matches s (before ++ first) second behind) :
    Matches (.concat r s) before (first ++ second) behind

variable {r s : Regex} {before piece behind : List Char} {c p : Char} {ignoreCase : Bool}

/-- The empty expression matches nothing. -/
theorem matches_empty_iff : Matches .empty before piece behind ↔ piece = [] := by
  constructor
  · rintro ⟨⟩
    rfl
  · rintro rfl
    exact .empty

/-- The start of the text has nothing before it. -/
theorem matches_start_iff : Matches .start before piece behind ↔ piece = [] ∧ before = [] := by
  constructor
  · rintro ⟨⟩
    exact ⟨rfl, rfl⟩
  · rintro ⟨rfl, rfl⟩
    exact .start

/-- The end of the text has nothing behind it. -/
theorem matches_stop_iff : Matches .stop before piece behind ↔ piece = [] ∧ behind = [] := by
  constructor
  · rintro ⟨⟩
    exact ⟨rfl, rfl⟩
  · rintro ⟨rfl, rfl⟩
    exact .stop

/-- A dot matches one character. -/
theorem matches_any_iff : Matches .any before piece behind ↔ ∃ c, c ≠ '\n' ∧ piece = [c] := by
  constructor
  · rintro (_ | _ | _ | hline)
    exact ⟨_, hline, rfl⟩
  · rintro ⟨c, hline, rfl⟩
    exact .any hline

/-- A character matches one that is the same. -/
theorem matches_char_iff : Matches (.char p ignoreCase) before piece behind ↔
    ∃ c, isSame ignoreCase p c = true ∧ piece = [c] := by
  constructor
  · rintro (_ | _ | _ | _ | _ | ⟨hp, hc⟩)
    · exact ⟨p, by cases ignoreCase <;> simp [isSame, Text.sameFolded], rfl⟩
    · exact ⟨_, Text.sameFolded_iff_folds.2 ⟨_, hp, hc⟩, rfl⟩
  · rintro ⟨c, hsame, rfl⟩
    cases ignoreCase with
    | false =>
      obtain rfl : p = c := by simpa [isSame] using hsame
      exact .same
    | true =>
      obtain ⟨d, hp, hc⟩ := Text.sameFolded_iff_folds.1 hsame
      exact .folded hp hc

/-- Two expressions match what falls into a piece for each. -/
theorem matches_concat_iff : Matches (.concat r s) before piece behind ↔
    ∃ first second, first ++ second = piece ∧ Matches r before first (second ++ behind) ∧
      Matches s (before ++ first) second behind := by
  constructor
  · rintro ⟨⟩
    exact ⟨_, _, rfl, ‹_›, ‹_›⟩
  · rintro ⟨first, second, rfl, hleft, hright⟩
    exact .concat hleft hright

/-- Nothing is matched where an expression may be passed over. -/
theorem matches_nil_iff :
    Matches r before [] behind ↔ r.nullable before.isEmpty behind.isEmpty = true := by
  induction r generalizing before behind with
  | empty => simp [matches_empty_iff, nullable]
  | start => simp [matches_start_iff, nullable]
  | stop => simp [matches_stop_iff, nullable]
  | any => simp [matches_any_iff, nullable]
  | char => simp [matches_char_iff, nullable]
  | star => simp [nullable, Matches.none]
  | concat r s hr hs => simp [matches_concat_iff, and_assoc, nullable, hr, hs]

/-! ## One character -/

/-- Two expressions match what begins with a character in which the first one begins to match, or
what the second one matches where the first one is passed over. -/
theorem matches_concat_cons_iff : Matches (.concat r s) before (c :: piece) behind ↔
    (∃ first second, first ++ second = piece ∧ Matches r before (c :: first) (second ++ behind) ∧
      Matches s (before ++ c :: first) second behind) ∨
    Matches r before [] (c :: piece ++ behind) ∧ Matches s before (c :: piece) behind := by
  rw [matches_concat_iff]
  constructor
  · rintro ⟨_ | ⟨d, first⟩, second, heq, hr, hs⟩
    · obtain rfl : second = c :: piece := heq
      rw [List.append_nil] at hs
      exact .inr ⟨hr, hs⟩
    · obtain ⟨rfl, rfl⟩ := List.cons.inj heq
      exact .inl ⟨first, second, rfl, hr, hs⟩
  · rintro (⟨first, second, rfl, hr, hs⟩ | ⟨hr, hs⟩)
    · exact ⟨c :: first, second, rfl, hr, hs⟩
    · exact ⟨[], c :: piece, rfl, hr, by rwa [List.append_nil]⟩

/-- A repetition matches what begins with a character in which one time begins to match, since times
that match nothing may be left out. -/
theorem matches_star_cons_iff : Matches (.star r) before (c :: piece) behind ↔
    ∃ first second, first ++ second = piece ∧ Matches r before (c :: first) (second ++ behind) ∧
      Matches (.star r) (before ++ c :: first) second behind := by
  constructor
  · intro h
    generalize hstar : star r = e at h
    generalize htext : c :: piece = text at h
    induction h with
    | @more before first second behind _ hone hothers _ ih =>
      obtain rfl := star.inj hstar
      cases first with
      | nil => simpa using ih rfl htext
      | cons d first =>
        obtain ⟨rfl, rfl⟩ := List.cons.inj htext
        exact ⟨first, second, rfl, hone, hothers⟩
    | none => cases htext
    | _ => cases hstar
  · rintro ⟨first, second, rfl, hone, hothers⟩
    exact .more hone hothers

/-- An empty expression in front changes nothing. -/
theorem matches_andThen_iff :
    Matches (r.andThen s) before piece behind ↔ Matches (.concat r s) before piece behind := by
  cases r with
  | empty =>
    simp only [andThen, matches_concat_iff, matches_empty_iff, and_left_comm (b := _ = [])]
    simp
  | _ => rfl

/-- Some rest behind a character, each with what follows it, matches what a rest of the first
expression and then the second one match. -/
theorem exists_mem_map_andThen_iff {rests : List Regex} :
    (∃ rest ∈ rests.map (·.andThen s), Matches rest before piece behind) ↔
      ∃ first second, first ++ second = piece ∧
        (∃ rest ∈ rests, Matches rest before first (second ++ behind)) ∧
        Matches s (before ++ first) second behind := by
  simp only [List.mem_map, exists_exists_and_eq_and, matches_andThen_iff, matches_concat_iff]
  constructor
  · rintro ⟨rest, hrest, first, second, heq, hleft, hright⟩
    exact ⟨first, second, heq, ⟨rest, hrest, hleft⟩, hright⟩
  · rintro ⟨first, second, heq, ⟨rest, hrest, hleft⟩, hright⟩
    exact ⟨rest, hrest, first, second, heq, hleft, hright⟩

/-- A character and what follows are matched if some rest behind the character matches what
follows. -/
theorem matches_cons_iff : Matches r before (c :: piece) behind ↔
    ∃ rest ∈ r.advance before.isEmpty c, Matches rest (before ++ [c]) piece behind := by
  induction r generalizing before piece behind with
  | empty => simp [matches_empty_iff, advance]
  | start => simp [matches_start_iff, advance]
  | stop => simp [matches_stop_iff, advance]
  | any =>
    simp only [matches_any_iff, List.cons.injEq, and_left_comm, exists_eq_left', advance]
    split <;> simp [*, matches_empty_iff]
  | char p ignoreCase =>
    simp only [matches_char_iff, List.cons.injEq, and_left_comm, exists_eq_left', advance]
    split <;> simp [*, matches_empty_iff]
  | star r ih =>
    simp only [matches_star_cons_iff, advance, exists_mem_map_andThen_iff, ih, List.append_assoc,
      List.singleton_append]
  | concat r s hr hs =>
    simp only [advance, List.mem_append, or_and_right, exists_or, exists_mem_map_andThen_iff,
      matches_concat_cons_iff, hr, hs, matches_nil_iff, List.append_assoc, List.cons_append,
      List.isEmpty_cons]
    split <;> simp [*]

/-! ## The whole text -/

/-- An expression matches a piece with which a text begins. -/
def Begins (r : Regex) (before text : List Char) : Prop :=
  ∃ piece behind, piece ++ behind = text ∧ Matches r before piece behind

/-- An expression matches a piece of a text. -/
def Found (r : Regex) (before text : List Char) : Prop :=
  ∃ skipped rest, skipped ++ rest = text ∧ Begins r (before ++ skipped) rest

variable {cs : List Char} {rests : List Regex}

/-- At the end of a text nothing is left to be matched. -/
theorem begins_nil_iff : Begins r before [] ↔ r.nullable before.isEmpty true = true := by
  simp [Begins, and_assoc, matches_nil_iff]

/-- An expression matches nothing, or begins to match in the next character. -/
theorem begins_cons_iff : Begins r before (c :: cs) ↔ r.nullable before.isEmpty false = true ∨
    ∃ rest ∈ r.advance before.isEmpty c, Begins rest (before ++ [c]) cs := by
  constructor
  · rintro ⟨_ | ⟨d, piece⟩, behind, heq, h⟩
    · obtain rfl : behind = c :: cs := heq
      exact .inl (matches_nil_iff.1 h)
    · obtain ⟨rfl, rfl⟩ := List.cons.inj heq
      obtain ⟨rest, hrest, h⟩ := matches_cons_iff.1 h
      exact .inr ⟨rest, hrest, piece, behind, rfl, h⟩
  · rintro (h | ⟨rest, hrest, piece, behind, rfl, h⟩)
    · exact ⟨[], c :: cs, rfl, matches_nil_iff.2 h⟩
    · exact ⟨c :: piece, behind, rfl, matches_cons_iff.2 ⟨rest, hrest, h⟩⟩

/-- Some of the expressions begins to match if one matches nothing or if one of the rests behind the
next character does so behind it. -/
theorem exists_begins_cons_iff : (∃ rest ∈ rests, Begins rest before (c :: cs)) ↔
    rests.any (nullable before.isEmpty false) = true ∨
      ∃ rest ∈ (rests.flatMap (advance before.isEmpty c)).eraseDups,
        Begins rest (before ++ [c]) cs := by
  simp only [begins_cons_iff, List.any_eq_true, List.mem_eraseDups, List.mem_flatMap]
  constructor
  · rintro ⟨rest, hrest, h | ⟨next, hnext, h⟩⟩
    · exact .inl ⟨rest, hrest, h⟩
    · exact .inr ⟨next, ⟨rest, hrest, hnext⟩, h⟩
  · rintro (⟨rest, hrest, h⟩ | ⟨next, ⟨rest, hrest, hnext⟩, h⟩)
    · exact ⟨rest, hrest, .inl h⟩
    · exact ⟨rest, hrest, .inr ⟨next, hnext, h⟩⟩

/-- At the end of a text an expression is found that matches nothing. -/
theorem found_nil_iff : Found r before [] ↔ Begins r before [] := by
  simp [Found, and_assoc]

/-- An expression is found where a text begins or behind its first character. -/
theorem found_cons_iff :
    Found r before (c :: cs) ↔ Begins r before (c :: cs) ∨ Found r (before ++ [c]) cs := by
  constructor
  · rintro ⟨_ | ⟨d, skipped⟩, rest, heq, h⟩
    · obtain rfl : rest = c :: cs := heq
      rw [List.append_nil] at h
      exact .inl h
    · obtain ⟨rfl, rfl⟩ := List.cons.inj heq
      exact .inr ⟨skipped, rest, rfl, by simpa using h⟩
  · rintro (h | ⟨skipped, rest, rfl, h⟩)
    · exact ⟨[], c :: cs, rfl, by rwa [List.append_nil]⟩
    · exact ⟨c :: skipped, rest, rfl, by simpa using h⟩

/-- The search ends well if one of the rests that it has come to matches what begins there, or if
the expression is found from there on. -/
theorem findsFrom_iff (r : Regex) (before : List Char) (rests : List Regex) (text : List Char) :
    r.findsFrom before.isEmpty rests text = true ↔
      (∃ rest ∈ rests, Begins rest before text) ∨ Found r before text := by
  induction text generalizing before rests with
  | nil => simp [findsFrom, found_nil_iff, begins_nil_iff, or_comm]
  | cons c cs ih =>
    have hbehind : (before ++ [c]).isEmpty = false := by simp
    rw [findsFrom, ← hbehind, Bool.or_eq_true, ih, hbehind, ← or_assoc, ← exists_begins_cons_iff,
      List.exists_mem_cons_iff, found_cons_iff, or_assoc, or_left_comm]

/-- **An expression is found in a text of which it matches a piece.** -/
theorem isMatch_iff {text : String} : r.isMatch text = true ↔
    ∃ before piece behind, before ++ (piece ++ behind) = text.toList ∧
      Matches r before piece behind := by
  have hsearch : r.isMatch text = true ↔ _ := findsFrom_iff r [] [] text.toList
  rw [hsearch]
  simp only [List.not_mem_nil, false_and, exists_false, false_or, Found, Begins, List.nil_append]
  constructor
  · rintro ⟨before, _, heq, piece, behind, rfl, h⟩
    exact ⟨before, piece, behind, heq, h⟩
  · rintro ⟨before, piece, behind, heq, h⟩
    exact ⟨before, _, heq, piece, behind, rfl, h⟩

/-! ## Reading -/

/-- A character that means nothing else is read as itself. -/
theorem elements?_cons (hc : isMeta c = false) (done : List Regex) (cs : List Char) :
    elements? ignoreCase done (c :: cs) = elements? ignoreCase (.char c ignoreCase :: done) cs := by
  simp only [isMeta, List.contains_eq_mem, List.mem_cons, decide_eq_false_iff_not, not_or] at hc
  rw [elements?.eq_def]
  split <;> simp_all

/-- A text that is escaped is read as its own characters. -/
theorem elements?_escape (text : String) (done : List Regex) (cs : List Char) :
    elements? ignoreCase done ((escape text).toList ++ cs) =
      elements? ignoreCase ((text.toList.map (char · ignoreCase)).reverse ++ done) cs := by
  rw [escape, String.toList_join, List.flatMap_map]
  induction text.toList generalizing done with
  | nil => rfl
  | cons c text ih =>
    have hone : ∀ rest, elements? ignoreCase done
        ((if isMeta c then "\\" ++ c.toString else c.toString).toList ++ rest) =
          elements? ignoreCase (.char c ignoreCase :: done) rest := by
      intro rest
      split
      · next hmeta =>
        have hlist : ("\\" ++ c.toString).toList = ['\\', c] := by
          rw [String.toList_append, Char.toString, String.toList_singleton]
          rfl
        rw [hlist]
        simp [elements?, hmeta]
      · next hmeta =>
        have hlist : c.toString.toList = [c] := String.toList_singleton c
        rw [hlist]
        exact elements?_cons (by simpa using hmeta) done rest
    rw [List.flatMap_cons, List.append_assoc, hone, ih]
    simp

end Regex

end SchemaMigration
