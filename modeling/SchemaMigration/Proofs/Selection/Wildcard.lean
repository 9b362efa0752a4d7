import Mathlib.Data.List.Forall2
import SchemaMigration.Proofs.Selection.Regex
import SchemaMigration.Selection.Wildcard

/-!
# What patterns match

A pattern matches a text that falls into pieces, one for each character of the pattern in turn: a
star stands for any piece without a line feed, a question mark for one character that is no line
feed, and any other character for one that folds to the same character (`Wildcard.Fits`). The
expression that a pattern is written out as is always one that can be read, and the characters of
the pattern are its elements in turn (`Wildcard.regex?_eq`), whatever they mean in an expression.
Each element matches what its character stands for, wherever it is (`Wildcard.matches_element_iff`),
and the anchors leave no text before the first piece or behind the last one. So the texts that a
pattern accepts are those that it matches (`Wildcard.accepts_iff_matches`).
-/

namespace SchemaMigration.Wildcard

/-- A character of a pattern stands for a piece of a text. -/
inductive Fits : Char → List Char → Prop
  | star {piece : List Char} (inLine : '\n' ∉ piece) : Fits '*' piece
  | any {c : Char} (inLine : c ≠ '\n') : Fits '?' [c]
  | same {p c d : Char} (noStar : p ≠ '*') (noMark : p ≠ '?') (hp : Text.Folds p d)
    (hc : Text.Folds c d) : Fits p [c]

/-! ## The expression of a pattern -/

/-- The element of an expression that a character of a pattern is written out as. -/
def element (c : Char) : Regex :=
  if c = '*' then .star .any else if c = '?' then .any else .char c true

/-- A character of a pattern is read as its element. -/
theorem elements?_written (c : Char) (done : List Regex) (cs : List Char) :
    Regex.elements? true done ((written c).toList ++ cs) =
      Regex.elements? true (element c :: done) cs := by
  unfold written element
  split
  · rfl
  · split
    · rfl
    · rw [Regex.elements?_escape, Char.toString, String.toList_singleton]
      rfl

/-- The characters of a pattern are read as its elements in turn. -/
theorem elements?_flatMap_written (pattern : List Char) (done : List Regex) (cs : List Char) :
    Regex.elements? true done (pattern.flatMap (fun c => (written c).toList) ++ cs) =
      Regex.elements? true ((pattern.map element).reverse ++ done) cs := by
  induction pattern generalizing done with
  | nil => rfl
  | cons c pattern ih =>
    rw [List.flatMap_cons, List.append_assoc, elements?_written, ih]
    simp

/-- What a pattern is written out as is read as its elements between the anchors. -/
theorem regex?_eq (pattern : String) :
    regex? pattern = some (.sequence (.start :: pattern.toList.map element ++ [.stop])) := by
  have hsource : (source pattern).toList =
      '^' :: (pattern.toList.flatMap (fun c => (written c).toList) ++ ['$']) := by
    simp [source, String.toList_join, List.flatMap_map]
  have hstart : Regex.elements? true [] (source pattern).toList =
      Regex.elements? true [.start]
        (pattern.toList.flatMap (fun c => (written c).toList) ++ ['$']) := by
    rw [hsource]
    rfl
  rw [regex?, Regex.build?, hstart, elements?_flatMap_written]
  simp [Regex.elements?]

/-! ## Its pieces -/

variable {before piece behind : List Char} {p : Char} {ps : List Char}

/-- Repeated dots match what has no line feed. -/
theorem matches_star_any_iff :
    (Regex.star .any).Matches before piece behind ↔ '\n' ∉ piece := by
  induction piece generalizing before with
  | nil => simp [Regex.Matches.none]
  | cons c piece ih =>
    simp only [Regex.matches_star_cons_iff, Regex.matches_any_iff, List.cons.injEq, List.mem_cons,
      not_or]
    constructor
    · rintro ⟨_, _, rfl, ⟨_, hline, rfl, rfl⟩, hrest⟩
      exact ⟨Ne.symm hline, ih.1 hrest⟩
    · rintro ⟨hline, hrest⟩
      exact ⟨[], piece, rfl, ⟨c, Ne.symm hline, rfl, rfl⟩, ih.2 hrest⟩

/-- An element matches what its character stands for. -/
theorem matches_element_iff : (element p).Matches before piece behind ↔ Fits p piece := by
  unfold element
  split
  · next hstar =>
    subst hstar
    rw [matches_star_any_iff]
    constructor
    · exact .star
    · rintro (hline | _ | ⟨hstar, -, -, -⟩)
      · exact hline
      · exact absurd rfl hstar
  · next hstar =>
    split
    · next hmark =>
      subst hmark
      rw [Regex.matches_any_iff]
      constructor
      · rintro ⟨c, hline, rfl⟩
        exact .any hline
      · rintro (_ | hline | ⟨-, hmark, -, -⟩)
        · exact ⟨_, hline, rfl⟩
        · exact absurd rfl hmark
    · next hmark =>
      simp only [Regex.matches_char_iff, Regex.isSame, if_true, Text.sameFolded_iff_folds]
      constructor
      · rintro ⟨c, ⟨d, hp, hc⟩, rfl⟩
        exact .same hstar hmark hp hc
      · rintro (_ | _ | ⟨-, -, hp, hc⟩)
        · exact absurd rfl hstar
        · exact absurd rfl hmark
        · exact ⟨_, ⟨_, hp, hc⟩, rfl⟩

/-- Elements up to the end match what falls into pieces for them and ends the text. -/
theorem matches_sequence_iff :
    (Regex.sequence (ps.map element ++ [.stop])).Matches before piece behind ↔
      behind = [] ∧ ∃ pieces, List.Forall₂ Fits ps pieces ∧ pieces.flatten = piece := by
  unfold Regex.sequence
  induction ps generalizing before piece with
  | nil =>
    simp only [List.map_nil, List.nil_append, List.foldr_cons, List.foldr_nil,
      Regex.matches_concat_iff, Regex.matches_stop_iff, Regex.matches_empty_iff,
      List.forall₂_nil_left_iff, exists_eq_left, List.flatten_nil]
    constructor
    · rintro ⟨_, _, rfl, ⟨rfl, hbehind⟩, rfl⟩
      exact ⟨hbehind, rfl⟩
    · rintro ⟨rfl, rfl⟩
      exact ⟨[], [], rfl, ⟨rfl, rfl⟩, rfl⟩
  | cons p ps ih =>
    simp only [List.map_cons, List.cons_append, List.foldr_cons, Regex.matches_concat_iff, ih,
      matches_element_iff, List.forall₂_cons_left_iff]
    constructor
    · rintro ⟨first, _, rfl, hfirst, rfl, pieces, hpieces, rfl⟩
      exact ⟨rfl, first :: pieces, ⟨first, pieces, hfirst, hpieces, rfl⟩, rfl⟩
    · rintro ⟨rfl, _, ⟨first, pieces, hfirst, hpieces, rfl⟩, rfl⟩
      exact ⟨first, pieces.flatten, rfl, hfirst, rfl, pieces, hpieces, rfl⟩

/-- **Patterns match what they say.** What a pattern is written out as is always read, and the
expression is found in a text exactly if the text falls into pieces, one for each character of the
pattern in turn, where a star stands for any piece without a line feed, a question mark for one
character other than a line feed, and every other character for one that folds to the same
character. -/
theorem accepts_iff_matches (pattern text : String) :
    ∃ r, Regex.build? (source pattern) true = some r ∧ accepts pattern text = r.isMatch text ∧
      (accepts pattern text = true ↔
        ∃ pieces, List.Forall₂ Fits pattern.toList pieces ∧ pieces.flatten = text.toList) := by
  have hread := regex?_eq pattern
  refine ⟨_, hread, by rw [accepts, hread, Option.any_some], ?_⟩
  rw [accepts, hread, Option.any_some, Regex.isMatch_iff]
  constructor
  · rintro ⟨before, piece, behind, htext, hmatches⟩
    obtain ⟨_, _, rfl, hstart, helements⟩ := Regex.matches_concat_iff.1 hmatches
    obtain ⟨rfl, rfl⟩ := Regex.matches_start_iff.1 hstart
    obtain ⟨rfl, pieces, hpieces, rfl⟩ := matches_sequence_iff.1 helements
    exact ⟨pieces, hpieces, by simpa using htext⟩
  · rintro ⟨pieces, hpieces, htext⟩
    refine ⟨[], pieces.flatten, [], by simpa using htext, ?_⟩
    refine Regex.matches_concat_iff.2 ⟨[], pieces.flatten, rfl, .start, ?_⟩
    exact matches_sequence_iff.2 ⟨rfl, pieces, hpieces, rfl⟩

/-- Brackets stand for themselves, an s for a long s too, and a star not for a line feed. -/
theorem long_s_in_brackets :
    (accepts "b?(s)*" "B.(ſ).c" = true ∧ ∃ pieces,
      List.Forall₂ Fits "b?(s)*".toList pieces ∧ pieces.flatten = "B.(ſ).c".toList) ∧
    accepts "b?(s)*" "b.(s)\n" = false ∧ ¬ ∃ pieces,
      List.Forall₂ Fits "b?(s)*".toList pieces ∧ pieces.flatten = "b.(s)\n".toList := by
  obtain ⟨-, -, -, hlong⟩ := accepts_iff_matches "b?(s)*" "B.(ſ).c"
  obtain ⟨-, -, -, hline⟩ := accepts_iff_matches "b?(s)*" "b.(s)\n"
  have haccepted : accepts "b?(s)*" "B.(ſ).c" = true := by decide +kernel
  have hrefused : accepts "b?(s)*" "b.(s)\n" = false := by decide +kernel
  refine ⟨⟨haccepted, hlong.1 haccepted⟩, hrefused, fun hpieces => ?_⟩
  rw [hline.2 hpieces] at hrefused
  cases hrefused

end SchemaMigration.Wildcard
