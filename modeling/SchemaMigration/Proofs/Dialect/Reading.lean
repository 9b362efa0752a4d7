import SchemaMigration.Proofs.Dialect.Identifier
import SchemaMigration.Sql.Lexer

/-!
# Identifiers are read by the rules of the dialects

An identifier is read as a word, which stands for itself, or as a name between marks
(`Dialect.readIdentifier`). PostgreSQL and MS SQL double the closing mark inside a name, so the name
ends with the first one that is not doubled (`Sql.quotedName_eq_some_iff`). In ClickHouse a
backslash takes the character behind it literally, but it is written in front of marks only: a
backslash of the name itself is read as part of an escape and gets lost
(`Dialect.escapedName_eq_some_iff`). Apart from that, what is written for an identifier is read back
from every text that begins with it and does not go on with it (`Dialect.identifier_read_back_iff`).
-/

namespace SchemaMigration

/-- A name with something else in place of its marks is read as a part of a name if a mark is read
from what stands for it, and every other character from itself. -/
theorem Text.read_replaceChars {read : List Char → Option (List Char × List Char)} {close : Char}
    {inside rest : List Char} {name : List Char}
    (hmark : ∀ cs, read (inside ++ cs) = (read cs).map (Prod.map (close :: ·) id))
    (hother : ∀ c ∈ name, c ≠ close → ∀ cs, read (c :: cs) = (read cs).map (Prod.map (c :: ·) id)) :
    read (replaceChars close inside name ++ rest) = (read rest).map (Prod.map (name ++ ·) id) := by
  induction name with
  | nil => exact (congrFun Option.map_id (read rest)).symm
  | cons c name ih =>
    have hread := ih fun other hin => hother other (List.mem_cons_of_mem c hin)
    rw [replaceChars_cons, List.append_assoc]
    split
    · next hc =>
      rw [hmark, hread, Option.map_map, Prod.map_comp_map, hc]
      rfl
    · next hc =>
      rw [List.singleton_append, hother c List.mem_cons_self hc, hread, Option.map_map,
        Prod.map_comp_map]
      rfl

/-- Something else takes the place of each mark. -/
theorem Text.length_replaceChars (c : Char) (replacement cs : List Char) :
    (replaceChars c replacement cs).length + cs.count c =
      cs.length + cs.count c * replacement.length := by
  induction cs with
  | nil => simp [replaceChars]
  | cons x cs ih =>
    rw [replaceChars_cons, List.length_append, List.count_cons, List.length_cons]
    by_cases hx : x = c
    · rw [if_pos hx, if_pos (beq_iff_eq.2 hx), Nat.add_mul, Nat.one_mul]
      omega
    · rw [if_neg hx, if_neg (by simpa using hx), List.length_singleton, Nat.add_zero]
      omega

/-! ## Names with doubled marks -/

namespace Sql

variable {close : Char} {cs rest : List Char}

/-- A character that is no closing mark belongs to the name. -/
theorem quotedName_cons {c : Char} (hc : c ≠ close) : quotedName close (c :: cs) =
    (quotedName close cs).map (Prod.map (c :: ·) id) := by
  rw [quotedName.eq_def]
  dsimp only
  rw [if_neg hc]
  rfl

/-- A doubled mark is one that belongs to the name. -/
theorem quotedName_double : quotedName close (close :: close :: cs) =
    (quotedName close cs).map (Prod.map (close :: ·) id) := by
  rw [quotedName.eq_def]
  dsimp only
  rw [if_pos rfl, if_pos rfl]
  rfl

/-- A mark that is not doubled ends the name. -/
theorem quotedName_close (h : close ∉ rest.head?) :
    quotedName close (close :: rest) = some ([], rest) := by
  rw [quotedName.eq_def]
  cases rest with
  | nil => simp
  | cons c rest =>
    have hc : c ≠ close := fun heq => h (heq ▸ rfl)
    simp [hc]

/-- A name whose marks are doubled is read back unless a mark follows the closing one. -/
theorem quotedName_eq_some_iff {name : List Char} :
    quotedName close (Text.replaceChars close [close, close] name ++ close :: rest) =
      some (name, rest) ↔ close ∉ rest.head? := by
  rw [Text.read_replaceChars (fun _ => quotedName_double) fun _ _ hc _ => quotedName_cons hc]
  constructor
  · intro hread hmark
    -- The two marks are taken for one that belongs to the name, which gets longer.
    obtain ⟨behind, rfl⟩ := List.head?_eq_some_iff.1 hmark
    rw [quotedName_double, Option.map_map, Option.map_eq_some_iff] at hread
    obtain ⟨⟨tail, other⟩, -, hsame⟩ := hread
    have hlength := congrArg (List.length ∘ Prod.fst) hsame
    simp at hlength
  · intro hmark
    rw [quotedName_close hmark]
    simp

end Sql

namespace Dialect

/-! ## Names with escapes -/

section
variable {close c : Char} {name cs rest : List Char}

/-- A name up to its closing mark, in which a backslash takes the character behind it literally;
also the text behind. -/
def escapedName (close : Char) : List Char → Option (List Char × List Char)
  | [] => none
  | '\\' :: c :: cs => (escapedName close cs).map (Prod.map (c :: ·) id)
  | c :: cs =>
    if c = close then some ([], cs) else (escapedName close cs).map (Prod.map (c :: ·) id)

/-- The character behind a backslash belongs to the name. -/
theorem escapedName_backslash : escapedName close ('\\' :: c :: cs) =
    (escapedName close cs).map (Prod.map (c :: ·) id) := by
  rw [escapedName]

/-- A character that is neither a closing mark nor a backslash belongs to the name. -/
theorem escapedName_cons (hbackslash : c ≠ '\\') (hc : c ≠ close) : escapedName close (c :: cs) =
    (escapedName close cs).map (Prod.map (c :: ·) id) := by
  rw [escapedName, if_neg hc]
  exact fun _ _ heq => absurd heq hbackslash

/-- A closing mark ends the name. -/
theorem escapedName_close (hclose : close ≠ '\\') :
    escapedName close (close :: rest) = some ([], rest) := by
  rw [escapedName, if_pos rfl]
  exact fun _ _ heq => absurd heq hclose

/-- Every mark and every backslash of a name that is read takes a backslash of the text. -/
theorem length_of_escapedName (hclose : close ≠ '\\')
    (h : escapedName close cs = some (name, rest)) :
    name.length + name.count close + name.count '\\' + rest.length < cs.length := by
  fun_induction escapedName close cs generalizing name with
  | case1 => cases h
  | case2 c cs ih =>
    obtain ⟨⟨tail, behind⟩, htail, hsame⟩ := Option.map_eq_some_iff.1 h
    obtain ⟨rfl, rfl⟩ := Prod.mk.inj hsame
    have hshort := ih htail
    rw [List.count_cons, List.count_cons, List.length_cons, List.length_cons, List.length_cons]
    -- The character is no mark and backslash at once.
    have hone : (if c == close then 1 else 0) + (if c == '\\' then 1 else 0) ≤ 1 := by
      grind
    omega
  | case3 c cs =>
    obtain ⟨rfl, rfl⟩ := Prod.mk.inj (Option.some.inj h)
    simp
  | case4 c cs hescape hc ih =>
    obtain ⟨⟨tail, behind⟩, htail, hsame⟩ := Option.map_eq_some_iff.1 h
    obtain ⟨rfl, rfl⟩ := Prod.mk.inj hsame
    have hshort := ih htail
    have hbackslash : c ≠ '\\' := by
      intro heq
      cases cs with
      | nil => cases htail
      | cons d cs => exact hescape d cs heq rfl
    rw [List.count_cons_of_ne hc, List.count_cons_of_ne hbackslash, List.length_cons,
      List.length_cons]
    omega

/-- A name whose marks are escaped is read back exactly if it has no backslashes. -/
theorem escapedName_eq_some_iff (hclose : close ≠ '\\') :
    escapedName close (Text.replaceChars close ['\\', close] name ++ close :: rest) =
      some (name, rest) ↔ '\\' ∉ name := by
  constructor
  · intro hread
    -- There are backslashes for the marks of the name only.
    have hshort := length_of_escapedName hclose hread
    have hlength := Text.length_replaceChars close ['\\', close] name
    rw [List.length_append, List.length_cons] at hshort
    simp only [List.length_cons, List.length_nil] at hlength
    exact List.count_eq_zero.1 (by omega)
  · intro hname
    rw [Text.read_replaceChars (fun _ => escapedName_backslash) fun c hin hc _ =>
      escapedName_cons (fun heq => hname (heq ▸ hin)) hc, escapedName_close hclose]
    simp

end

/-! ## Reading identifiers -/

/-- The mark in front of a quoted identifier. -/
def openingMark : Dialect → Char
  | postgres => '"'
  | msSql => '['
  | clickHouse => graveAccent

/-- The mark behind a quoted identifier. -/
def closingMark : Dialect → Char
  | postgres => '"'
  | msSql => ']'
  | clickHouse => graveAccent

/-- A quoted identifier behind its opening mark, and the text behind its closing mark. -/
def readQuoted (dialect : Dialect) : List Char → Option (List Char × List Char) :=
  match dialect with
  | postgres | msSql => Sql.quotedName dialect.closingMark
  | clickHouse => escapedName dialect.closingMark

/-- The identifier that a text begins with, and the text behind it. -/
def readIdentifier (dialect : Dialect) : List Char → Option (List Char × List Char)
  | [] => none
  | c :: cs =>
    if c = dialect.openingMark then dialect.readQuoted cs
    else if Sql.startsWord dialect c then
      some ((c :: cs).takeWhile (Sql.continuesWord dialect),
        (c :: cs).dropWhile (Sql.continuesWord dialect))
    else none

/-- What follows an identifier goes on with it: it begins with the closing mark, which is doubled
inside. -/
def GoesOn (dialect : Dialect) (ident rest : String) : Prop :=
  dialect ≠ clickHouse ∧ dialect.quote ident ≠ ident ∧ dialect.closingMark ∈ rest.toList.head?

/-- Whether what follows an identifier goes on with it can be computed. -/
instance (dialect : Dialect) (ident rest : String) : Decidable (dialect.GoesOn ident rest) :=
  inferInstanceAs (Decidable (_ ∧ _ ∧ _))

section
variable {dialect : Dialect} {c : Char}

/-- Letters of ASCII are alphabetic. -/
theorem isAlphabetic_of_isAlpha (h : c.isAlpha = true) : Text.isAlphabetic c = true := by
  have hc : c.toNat < 128 := by
    have hlast : c.val ≤ 'Z'.val ∨ c.val ≤ 'z'.val := by
      rcases Bool.or_eq_true_iff.1 h with h | h
      · exact .inl (of_decide_eq_true h).2
      · exact .inr (of_decide_eq_true (Bool.and_eq_true_iff.1 h).2)
    rcases hlast with hlast | hlast
    · exact Nat.lt_of_le_of_lt (UInt32.le_iff_toNat_le.1 hlast) (by decide)
    · exact Nat.lt_of_le_of_lt (UInt32.le_iff_toNat_le.1 hlast) (by decide)
  rw [Text.isAlphabetic, if_pos hc, h]

/-- Bare identifiers start as words. -/
theorem startsWord_of_startsBare (h : dialect.startsBare c = true) :
    Sql.startsWord dialect c = true := by
  simp only [startsBare, Bool.or_eq_true, Bool.and_eq_true] at h
  rcases h with (h | h) | ⟨-, h⟩
  · cases dialect <;> simp_all [Sql.startsWord]
  · have hletter : c.isAlpha = true := Bool.or_eq_true_iff.2 (.inr h)
    cases dialect <;> simp [Sql.startsWord, hletter, isAlphabetic_of_isAlpha]
  · have hletter : c.isAlpha = true := Bool.or_eq_true_iff.2 (.inl h)
    cases dialect <;> simp [Sql.startsWord, hletter, isAlphabetic_of_isAlpha]

/-- What starts a word continues one. -/
theorem continuesWord_of_startsWord (h : Sql.startsWord dialect c = true) :
    Sql.continuesWord dialect c = true := by
  cases dialect <;> simp only [Sql.startsWord, Sql.continuesWord, Bool.or_eq_true] at h ⊢ <;>
    grind [Char.isAlphanum]

/-- Bare identifiers continue as words. -/
theorem continuesWord_of_continuesBare (h : dialect.continuesBare c = true) :
    Sql.continuesWord dialect c = true := by
  rw [continuesBare, Bool.or_eq_true] at h
  rcases h with h | h
  · exact continuesWord_of_startsWord (startsWord_of_startsBare h)
  · cases dialect <;> simp [Sql.continuesWord, Char.isAlphanum, h]

/-- Every character of a bare identifier continues one. -/
theorem continuesBare_of_isBare {ident : List Char} (h : dialect.isBare ident = true) :
    ∀ c ∈ ident, dialect.continuesBare c = true := by
  cases ident with
  | nil => cases h
  | cons first others =>
    rw [isBare, Bool.and_eq_true, List.all_eq_true] at h
    intro c hc
    rcases List.mem_cons.1 hc with rfl | hc
    · rw [continuesBare, h.1, Bool.true_or]
    · exact h.2 c hc

/-- Bare identifiers are read as words. -/
theorem readIdentifier_of_isBare {ident rest : List Char} (h : dialect.isBare ident = true)
    (hrest : ∀ c ∈ rest.head?, Sql.continuesWord dialect c = false) :
    dialect.readIdentifier (ident ++ rest) = some (ident, rest) := by
  cases ident with
  | nil => cases h
  | cons first others =>
    have hall : ∀ c ∈ first :: others, Sql.continuesWord dialect c = true := fun c hc =>
      continuesWord_of_continuesBare (continuesBare_of_isBare h c hc)
    obtain ⟨hstart, -⟩ := Bool.and_eq_true_iff.1 h
    have hmark : first ≠ dialect.openingMark := by
      rintro rfl
      revert hstart
      cases dialect <;> decide
    rw [List.cons_append, readIdentifier, if_neg hmark, if_pos (startsWord_of_startsBare hstart),
      ← List.cons_append, List.takeWhile_append_of_pos hall,
      List.dropWhile_append_of_pos hall]
    cases rest with
    | nil => simp
    | cons c rest => simp [hrest c rfl]

end

/-! ## What is written -/

/-- What stands for a closing mark inside a quoted identifier. -/
def markInside : Dialect → List Char
  | postgres => ['"', '"']
  | msSql => [']', ']']
  | clickHouse => ['\\', graveAccent]

/-- Identifiers are written bare, as they are, or between marks. -/
theorem quoteChars_eq (dialect : Dialect) (ident : List Char) :
    dialect.isBare ident = true ∧ dialect.quoteChars ident = ident ∨
      dialect.quoteChars ident = dialect.openingMark ::
        (Text.replaceChars dialect.closingMark dialect.markInside ident ++
          [dialect.closingMark]) := by
  cases dialect with
  | postgres =>
    rw [quoteChars]
    split
    · next h => exact .inl ⟨(Bool.and_eq_true_iff.1 h).1, rfl⟩
    · exact .inr rfl
  | msSql => exact .inr rfl
  | clickHouse =>
    rw [quoteChars]
    split
    · next h => exact .inl ⟨h, rfl⟩
    · exact .inr rfl

/-- An identifier between marks is not written as it is. -/
theorem quote_ne_of_marked {dialect : Dialect} {ident : String}
    (h : dialect.quoteChars ident.toList = dialect.openingMark ::
      (Text.replaceChars dialect.closingMark dialect.markInside ident.toList ++
        [dialect.closingMark])) : dialect.quote ident ≠ ident := by
  intro hsame
  have hlength := congrArg List.length h
  rw [← String.toList_ofList (l := dialect.quoteChars _), ← quote, hsame, List.length_cons,
    List.length_append, List.length_singleton] at hlength
  have hreplaced :=
    Text.length_replaceChars dialect.closingMark dialect.markInside ident.toList
  have hinside : dialect.markInside.length = 2 := by cases dialect <;> rfl
  rw [hinside] at hreplaced
  omega

/-- **Identifiers are read back.** What is written for an identifier in a text that does not go on
with a word is read back, with what follows it, exactly if that does not go on with a quoted
identifier either, and unless it is an identifier of ClickHouse with a backslash. -/
theorem identifier_read_back_iff (dialect : Dialect) (ident rest : String)
    (hrest : ∀ c ∈ rest.toList.head?, Sql.continuesWord dialect c = false) :
    dialect.readIdentifier (dialect.quote ident ++ rest).toList =
        some (ident.toList, rest.toList) ↔
      ¬ dialect.GoesOn ident rest ∧ ¬ (dialect = clickHouse ∧ '\\' ∈ ident.toList) := by
  have hchars : (dialect.quote ident).toList = dialect.quoteChars ident.toList := by simp [quote]
  rw [String.toList_append, hchars]
  rcases dialect.quoteChars_eq ident.toList with ⟨hbare, hquote⟩ | hquote
  · have hsame : dialect.quote ident = ident := String.toList_inj.1 (hchars.trans hquote)
    have hbackslash : ¬ (dialect = clickHouse ∧ '\\' ∈ ident.toList) := by
      rintro ⟨rfl, hin⟩
      exact absurd (continuesBare_of_isBare hbare _ hin) (by decide)
    rw [hquote, readIdentifier_of_isBare hbare hrest]
    simp [GoesOn, hsame, hbackslash]
  · have hmarked : dialect.quote ident ≠ ident := quote_ne_of_marked hquote
    rw [hquote, List.cons_append, readIdentifier, if_pos rfl, List.append_assoc,
      List.singleton_append]
    cases dialect with
    | postgres | msSql =>
      refine Sql.quotedName_eq_some_iff.trans ?_
      simp [GoesOn, hmarked]
    | clickHouse =>
      refine (escapedName_eq_some_iff (by decide)).trans ?_
      simp [GoesOn]

/-- Names with the marks of their dialects inside are read back up to the dot behind them; a mark
right behind a name is taken for a part of it. -/
theorem marked_read_back :
    (∀ dialect, ∀ c ∈ ".x".toList.head?, Sql.continuesWord dialect c = false) ∧
      postgres.readIdentifier (postgres.quote "a\"b" ++ ".x").toList =
        some ("a\"b".toList, ".x".toList) ∧
      msSql.readIdentifier (msSql.quote "a]b" ++ ".x").toList =
        some ("a]b".toList, ".x".toList) ∧
      clickHouse.readIdentifier (clickHouse.quote "a`b" ++ ".x").toList =
        some ("a`b".toList, ".x".toList) ∧
      postgres.readIdentifier (postgres.quote "a b" ++ "\"c\"").toList ≠
        some ("a b".toList, "\"c\"".toList) := by
  have hdot : ∀ dialect, ∀ c ∈ ".x".toList.head?, Sql.continuesWord dialect c = false := by
    rintro dialect c ⟨⟩
    cases dialect <;> rfl
  have hmark : ∀ c ∈ "\"c\"".toList.head?, Sql.continuesWord postgres c = false := by
    rintro c ⟨⟩
    rfl
  refine ⟨hdot, ?_, ?_, ?_, mt (identifier_read_back_iff postgres _ _ hmark).1 ?_⟩
  · exact (identifier_read_back_iff postgres _ _ (hdot _)).2 (by decide +kernel)
  · exact (identifier_read_back_iff msSql _ _ (hdot _)).2 (by decide +kernel)
  · exact (identifier_read_back_iff clickHouse _ _ (hdot _)).2 (by decide +kernel)
  · decide +kernel

/-- A backslash at the end of an identifier makes the closing mark a part of the name, which goes on
up to the next mark. -/
theorem backslash_opens_name :
    let rest := " Int8, `b c`"
    (∀ c ∈ rest.toList.head?, Sql.continuesWord clickHouse c = false) ∧
      clickHouse.quote "a\\" = "`a\\`" ∧
      clickHouse.readIdentifier (clickHouse.quote "a\\" ++ rest).toList =
        some ("a` Int8, ".toList, "b c`".toList) := by
  refine ⟨?_, by decide +kernel, by decide +kernel⟩
  rintro c ⟨⟩
  rfl

end Dialect

end SchemaMigration
