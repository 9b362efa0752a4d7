import SchemaMigration.Dialect.Identifier

/-!
# Identifiers are read back

What PostgreSQL writes for an identifier can be read back from the text that begins with it, as long
as what follows can be told from a part of it (`Dialect.Delimits`). A bare identifier ends with the
last character that may stand in one, a quoted one with the first quotation mark that is not
doubled. So no two identifiers are written alike (`Dialect.quote_append_inj`), and neither are two
qualified names (`Dialect.dotted_append_inj`) or two string literals (`literal_append_inj`).
-/

namespace SchemaMigration

/-! ## Doubled characters -/

/-- The first character is replaced, or it stays. -/
theorem Text.replaceChars_cons (c : Char) (replacement : List Char) (x : Char) (xs : List Char) :
    replaceChars c replacement (x :: xs) =
      (if x = c then replacement else [x]) ++ replaceChars c replacement xs := rfl

/-- A text in which a character is doubled ends where the character stands alone. -/
theorem Text.replaceChars_double_inj {c : Char} {a b x y : List Char} (hx : c ∉ x.head?)
    (hy : c ∉ y.head?)
    (h : replaceChars c [c, c] a ++ c :: x = replaceChars c [c, c] b ++ c :: y) :
    a = b ∧ x = y := by
  induction a generalizing b with
  | nil =>
    cases b with
    | nil => exact ⟨rfl, (List.cons.inj h).2⟩
    | cons second rest =>
      rw [replaceChars_cons] at h
      split at h
      · exact absurd (by rw [(List.cons.inj h).2]; rfl) hx
      · next hne => exact absurd (List.cons.inj h).1.symm hne
  | cons first rest ih =>
    cases b with
    | nil =>
      rw [replaceChars_cons] at h
      split at h
      · exact absurd (by rw [← (List.cons.inj h).2]; rfl) hy
      · next hne => exact absurd (List.cons.inj h).1 hne
    | cons second others =>
      rw [replaceChars_cons, replaceChars_cons] at h
      split at h <;> split at h
      · next hfirst hsecond =>
        obtain ⟨rfl, rfl⟩ := ih (List.cons.inj (List.cons.inj h).2).2
        exact ⟨by rw [hfirst, hsecond], rfl⟩
      · next hsecond => exact absurd (List.cons.inj h).1.symm hsecond
      · next hfirst _ => exact absurd (List.cons.inj h).1 hfirst
      · obtain ⟨hhead, h⟩ := List.cons.inj h
        obtain ⟨rfl, rfl⟩ := ih h
        exact ⟨by rw [hhead], rfl⟩

/-- A string literal is read back from a text that begins with it. -/
theorem literal_append_inj {a b x y : String} (hx : '\'' ∉ x.toList.head?)
    (hy : '\'' ∉ y.toList.head?) (h : literal a ++ x = literal b ++ y) : a = b ∧ x = y := by
  have hchars := congrArg String.toList h
  simp only [literal, Text.replaceEach, String.append_assoc, String.toList_append,
    String.toList_ofList, List.append_cancel_left_eq] at hchars
  obtain ⟨hab, hxy⟩ := Text.replaceChars_double_inj hx hy hchars
  exact ⟨String.toList_inj.1 hab, String.toList_inj.1 hxy⟩

/-- No two string literals are written alike. -/
theorem literal_injective : Function.Injective literal := fun a b h =>
  have hempty : literal a ++ "" = literal b ++ "" := congrArg (· ++ "") h
  (literal_append_inj (by simp) (by simp) hempty).1

namespace Dialect

/-! ## Identifiers of PostgreSQL -/

/-- What follows an identifier can be told from a part of it. -/
def Delimits (rest : List Char) : Prop :=
  ∀ c ∈ rest.head?, postgres.continuesBare c = false ∧ c ≠ '"'

/-- What begins with a blank follows identifiers. -/
theorem delimits_blank {rest : List Char} : Delimits (' ' :: rest) := by
  rintro c ⟨⟩
  decide

/-- What begins with a dot follows identifiers. -/
theorem delimits_dot {rest : List Char} : Delimits ('.' :: rest) := by
  rintro c ⟨⟩
  decide

/-- A bare identifier is what there is in front of the first character that cannot stand in one. -/
theorem takeWhile_of_isBare {ident rest : List Char} (hident : postgres.isBare ident = true)
    (hrest : Delimits rest) : (ident ++ rest).takeWhile postgres.continuesBare = ident := by
  have hall : ∀ c ∈ ident, postgres.continuesBare c = true := by
    cases ident with
    | nil => exact fun c hc => absurd hc List.not_mem_nil
    | cons first others =>
      rw [isBare, Bool.and_eq_true, List.all_eq_true] at hident
      refine fun c hc => (List.mem_cons.1 hc).elim (fun heq => ?_) (hident.2 c)
      rw [continuesBare, heq, hident.1, Bool.true_or]
  rw [List.takeWhile_append_of_pos hall]
  cases rest with
  | nil => rw [List.takeWhile_nil, List.append_nil]
  | cons c rest => rw [List.takeWhile_cons, (hrest c rfl).1, if_neg Bool.false_ne_true,
      List.append_nil]

/-- A bare identifier is not written like a quoted one. -/
theorem isBare_append_ne {ident x y : List Char} (hident : postgres.isBare ident = true) :
    ident ++ x ≠ '"' :: y := by
  cases ident with
  | nil => cases hident
  | cons first others =>
    intro h
    rw [isBare, (List.cons.inj h).1, show postgres.startsBare '"' = false by decide] at hident
    cases hident

/-- An identifier is read back from the characters that begin with it. -/
theorem quoteChars_append_inj {a b x y : List Char} (hx : Delimits x) (hy : Delimits y)
    (h : postgres.quoteChars a ++ x = postgres.quoteChars b ++ y) : a = b ∧ x = y := by
  have hbare : ∀ {ident : List Char},
      (postgres.isBare ident && !reservedWords.contains (String.ofList ident)) = true →
      postgres.isBare ident = true := fun h => (Bool.and_eq_true_iff.1 h).1
  have hquote : ∀ {rest : List Char}, Delimits rest → '"' ∉ rest.head? :=
    fun hrest hin => (hrest _ hin).2 rfl
  unfold quoteChars at h
  dsimp only at h
  split at h <;> split at h
  · next ha hb =>
    have heq := congrArg (List.takeWhile postgres.continuesBare) h
    rw [takeWhile_of_isBare (hbare ha) hx, takeWhile_of_isBare (hbare hb) hy] at heq
    subst heq
    exact ⟨rfl, List.append_cancel_left h⟩
  · next ha _ => exact absurd h (isBare_append_ne (hbare ha))
  · next _ hb => exact absurd h.symm (isBare_append_ne (hbare hb))
  · simp only [List.cons_append, List.append_assoc, List.nil_append, List.cons.injEq,
      true_and] at h
    exact Text.replaceChars_double_inj (hquote hx) (hquote hy) h

/-- An identifier is read back from a text that begins with it. -/
theorem quote_append_inj {a b x y : String} (hx : Delimits x.toList) (hy : Delimits y.toList)
    (h : postgres.quote a ++ x = postgres.quote b ++ y) : a = b ∧ x = y := by
  have hchars := congrArg String.toList h
  simp only [String.toList_append, quote, String.toList_ofList] at hchars
  obtain ⟨hab, hxy⟩ := quoteChars_append_inj hx hy hchars
  exact ⟨String.toList_inj.1 hab, String.toList_inj.1 hxy⟩

/-- A qualified name is read back from a text that begins with it. -/
theorem dotted_append_inj {schema name schema' name' x y : String} (hx : Delimits x.toList)
    (hy : Delimits y.toList)
    (h : postgres.dotted schema name ++ x = postgres.dotted schema' name' ++ y) :
    schema = schema' ∧ name = name' ∧ x = y := by
  simp only [dotted, String.append_assoc] at h
  have hdot : ∀ rest : String, Delimits ("." ++ rest).toList := fun rest => by
    rw [String.toList_append]
    exact delimits_dot
  obtain ⟨hschema, h⟩ := quote_append_inj (hdot _) (hdot _) h
  obtain ⟨hname, hrest⟩ := quote_append_inj hx hy ((String.append_right_inj _).1 h)
  exact ⟨hschema, hname, hrest⟩

end Dialect

end SchemaMigration
