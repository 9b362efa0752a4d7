import SchemaMigration.Proofs.Json.Printer

/-!
# Printed documents are read back

The reader finds a printed document again and stops right behind it (`Json.Fits.value_chars`), so
that reading undoes printing (`Json.Fits.read_print`). This is shown for the documents that the
reader accepts among those that codecs write: brackets are not nested too deep, and integers have at
most 64 bits (`Json.Fits`). The reader is bounded by the number of characters; each document takes
at least as many characters as steps.
-/

namespace SchemaMigration.Json

/-- A document is complete, its brackets are nested at most so deep, and its numbers are integers of
64 bits. -/
inductive Fits : Nat → Json → Prop
  | null (levels : Nat) : Fits levels .null
  | bool (levels : Nat) (value : Bool) : Fits levels (.bool value)
  | integer (levels : Nat) {value : Int} (hword : value.natAbs ≤ Numeral.wordLimit) :
    Fits levels (.integer value)
  | string (levels : Nat) (value : String) : Fits levels (.string value)
  | list {levels : Nat} {items : List Json} (hitems : ∀ item ∈ items, Fits levels item) :
    Fits (levels + 1) (.list items)
  | record {levels : Nat} {members : List (String × Json)}
    (hmembers : ∀ member ∈ members, Fits levels member.2) : Fits (levels + 1) (.record members)

/-- A document that fits is plain. -/
theorem Fits.plain {levels : Nat} {a : Json} (h : a.Fits levels) : a.Plain := by
  induction h with
  | null => exact .null
  | bool levels value => exact .bool value
  | integer levels hword => exact .integer _
  | string levels value => exact .string value
  | list _ ih => exact .list ih
  | record _ ih => exact .record ih

/-- Items may be used if each of them may. -/
theorem allUsable_iff {items : List Json} :
    allUsable items = true ↔ ∀ item ∈ items, item.isUsable = true := by
  induction items with
  | nil => simp [allUsable]
  | cons item items ih => simp [allUsable, ih]

/-- Members may be used if each of their values may. -/
theorem membersUsable_iff {members : List (String × Json)} :
    membersUsable members = true ↔ ∀ member ∈ members, member.2.isUsable = true := by
  induction members with
  | nil => simp [membersUsable]
  | cons member members ih => simp only [membersUsable, Bool.and_eq_true, ih, List.forall_mem_cons]

/-- A document that fits may be used. -/
theorem Fits.isUsable {levels : Nat} {a : Json} (h : a.Fits levels) : a.isUsable = true := by
  induction h with
  | null | bool | integer | string => rfl
  | list _ ih => exact allUsable_iff.2 ih
  | record _ ih => exact membersUsable_iff.2 ih

/-- A text ends, or goes on as it does behind a document inside another one. -/
inductive Closes : List Char → Prop
  | nil : Closes []
  | comma (rest : List Char) : Closes (',' :: rest)
  | bracket (rest : List Char) : Closes (']' :: rest)
  | brace (rest : List Char) : Closes ('\x7d' :: rest)

/-- No digit follows a document. -/
theorem Closes.ends {rest : List Char} (h : Closes rest) : Ends rest := by
  cases h with
  | nil => exact fun _ h => by cases h
  | comma | bracket | brace => exact ends_cons rfl

/-! ## Blanks -/

/-- No blank is skipped where none stands. -/
theorem skipSpace_cons {c : Char} (rest : List Char) (hc : isSpace c = false) :
    skipSpace (c :: rest) = c :: rest :=
  List.dropWhile_cons_of_neg (by simp [hc])

/-- No document begins with a blank. -/
theorem Plain.skipSpace_chars {a : Json} (h : a.Plain) (rest : List Char) :
    skipSpace (chars a ++ rest) = chars a ++ rest := by
  obtain ⟨c, more, heq, hopen⟩ := h.exists_cons
  rw [heq]
  refine skipSpace_cons _ (Bool.eq_false_iff.2 fun hspace => ?_)
  have hcases : c = ' ' ∨ c = '\n' ∨ c = '\t' ∨ c = '\r' := by
    simpa [isSpace, or_assoc] using hspace
  cases h <;> rcases hcases with rfl | rfl | rfl | rfl <;> simp at hopen

/-! ## Numbers -/

/-- A number is the value of its digits. -/
theorem natOfDigits_toDigits (n : Nat) : natOfDigits (Nat.toDigits 10 n) = n := by
  have hstep : (fun n c => n * 10 + Numeral.digitValue c) =
      fun (sofar : Nat) (c : Char) => 10 * sofar + (c.toNat - '0'.toNat) := by
    funext n c
    rw [Numeral.digitValue, Nat.mul_comm]
  rw [natOfDigits, hstep]
  exact Nat.ofDigitChars_ten_toDigits

/-- A number other than zero is written without a zero in front. -/
theorem head?_toDigits_ne {n : Nat} (hn : n ≠ 0) : (Nat.toDigits 10 n).head? ≠ some '0' := by
  induction n using Nat.strongRecOn with
  | ind n ih =>
    by_cases hlt : n < 10
    · rw [Nat.toDigits_of_lt_base hlt]
      interval_cases n <;> first | exact absurd rfl hn | decide
    · rw [Nat.toDigits_of_base_le (by decide) (by omega), List.head?_append_of_ne_nil _
        Nat.toDigits_ne_nil]
      exact ih (n / 10) (by omega) (by omega)

/-- The digits of a number, with what closes a document behind them, are a numeral. -/
theorem numeral?_toDigits (negative : Bool) {n : Nat} (hzero : negative = true → n ≠ 0)
    {rest : List Char} (hrest : Closes rest) : numeral? negative (Nat.toDigits 10 n ++ rest) =
      some (.integer (if negative then -(n : Int) else n), rest) := by
  have hwhole := takeWhile_toDigits n hrest.ends
  have hdrop : (Nat.toDigits 10 n ++ rest).dropWhile Char.isDigit = rest := by
    have hsplit := List.takeWhile_append_dropWhile (p := Char.isDigit)
      (l := Nat.toDigits 10 n ++ rest)
    rw [hwhole] at hsplit
    exact List.append_cancel_left hsplit
  have hlead : ((Nat.toDigits 10 n).isEmpty || ((Nat.toDigits 10 n).head? == some '0' &&
      decide (1 < (Nat.toDigits 10 n).length))) = false := by
    by_cases hn : n = 0
    · subst hn
      rfl
    · simp [Nat.toDigits_ne_nil, head?_toDigits_ne hn]
  have hfraction : fractionPart rest = some (none, rest) := by cases hrest <;> rfl
  have hexponent : exponentPart rest = some (none, rest) := by cases hrest <;> rfl
  unfold numeral?
  dsimp only
  rw [hwhole, hdrop, hlead, hfraction]
  simp only [Bool.false_eq_true, if_false, Option.bind_eq_bind, Option.bind_some, hexponent,
    natOfDigits_toDigits]
  cases negative with
  | false => simp
  | true => simp [hzero rfl]

/-- An integer of 64 bits is read back. -/
theorem numberValue_toDigits (negative : Bool) {n : Nat} (hzero : negative = true → n ≠ 0)
    (hword : n ≤ Numeral.wordLimit) {rest : List Char} (hrest : Closes rest) :
    numberValue negative (Nat.toDigits 10 n ++ rest) =
      (.integer (if negative then -(n : Int) else n), rest) := by
  have hrange : (Numeral.integer (if negative then -(n : Int) else n)).inRange = true := by
    cases negative <;> simp [Numeral.inRange, hword]
  rw [numberValue, numeral?_toDigits negative hzero hrest]
  dsimp only
  rw [if_pos hrange]
  rfl

/-! ## Strings -/

/-- An escaped text is not shorter. -/
theorem length_le_escaped (content : List Char) :
    content.length ≤ (content.flatMap escapeChar).length := by
  have hone : ∀ c, 1 ≤ (escapeChar c).length := by
    intro c
    unfold escapeChar
    repeat' split
    all_goals simp
  induction content with
  | nil => exact Nat.le_refl 0
  | cons c content ih =>
    have := hone c
    simp only [List.flatMap_cons, List.length_append, List.length_cons]
    omega

/-- A string in quotation marks is read back. -/
theorem stringRest_quote (s : String) (rest : List Char) :
    ∃ marked, quote s ++ rest = '"' :: marked ∧
      stringRest (marked.length + 1) marked = .whole s.toList rest := by
  refine ⟨s.toList.flatMap escapeChar ++ '"' :: rest, by simp [quote], stringRest_quoted rest ?_⟩
  have := length_le_escaped s.toList
  simp only [List.length_append, List.length_cons]
  omega

/-! ## Documents -/

/-- A string is read behind its opening quotation mark. -/
theorem value_quote (fuel depth : Nat) (cs : List Char) :
    value (fuel + 1) depth ('"' :: cs) =
      match stringRest (cs.length + 1) cs with
      | .whole content rest => (.string (String.ofList content), rest)
      | .surrogate rest => (.refused none, rest)
      | .broken => (.broken, []) :=
  rfl

/-- An array is read behind its opening bracket. -/
theorem value_bracket (fuel depth : Nat) (cs : List Char) :
    value (fuel + 1) depth ('[' :: cs) =
      match skipSpace cs with
      | ']' :: rest => (limited depth (.array [] true), rest)
      | rest =>
        let (found, closed, rest) := items fuel (depth + 1) rest
        (limited depth (.array found closed), rest) :=
  rfl

/-- An object is read behind its opening bracket. -/
theorem value_brace (fuel depth : Nat) (cs : List Char) :
    value (fuel + 1) depth ('\x7b' :: cs) =
      match skipSpace cs with
      | '\x7d' :: rest => (limited depth (.object [] true), rest)
      | rest =>
        let (found, closed, rest) := members fuel (depth + 1) rest
        (limited depth (.object found closed), rest) :=
  rfl

/-- An array that has items is read item by item. -/
theorem value_list {fuel depth : Nat} {cs rest : List Char} {found : List Json}
    (hopen : ∀ rest, skipSpace cs ≠ ']' :: rest) (hdepth : depth < nestingLimit)
    (h : items fuel (depth + 1) (skipSpace cs) = (found, true, rest)) :
    value (fuel + 1) depth ('[' :: cs) = (.list found, rest) := by
  rw [value_bracket]
  split
  · next heq => exact absurd heq (hopen _)
  · rw [h]
    exact congrArg (·, rest) (if_pos hdepth)

/-- An object that has members is read member by member. -/
theorem value_record {fuel depth : Nat} {cs rest : List Char} {found : List (String × Json)}
    (hopen : ∀ rest, skipSpace cs ≠ '\x7d' :: rest) (hdepth : depth < nestingLimit)
    (h : members fuel (depth + 1) (skipSpace cs) = (found, true, rest)) :
    value (fuel + 1) depth ('\x7b' :: cs) = (.record found, rest) := by
  rw [value_brace]
  split
  · next heq => exact absurd heq (hopen _)
  · rw [h]
    exact congrArg (·, rest) (if_pos hdepth)

/-- A text with a digit in front is read as a number. -/
theorem value_digit (fuel depth : Nat) {c : Char} (rest : List Char) (hc : c.isDigit = true) :
    value (fuel + 1) depth (c :: rest) = numberValue false (c :: rest) := by
  have hrange : 48 ≤ c.toNat ∧ c.toNat ≤ 57 := by
    simpa [Char.isDigit, UInt32.le_iff_toNat_le] using hc
  have heq := Char.ofNat_toNat c
  obtain ⟨hlow, hhigh⟩ := hrange
  interval_cases h : c.toNat <;> rw [← heq] <;> rfl

section
variable {fuel depth : Nat} {found : Json} {name cs marked rest : List Char}

/-- The last item of an array. -/
theorem items_bracket (h : value fuel depth cs = (found, ']' :: rest)) :
    items (fuel + 1) depth cs = ([found], true, rest) := by
  rw [items, h]
  rfl

/-- An item of an array that others follow. -/
theorem items_comma (h : value fuel depth cs = (found, ',' :: rest)) :
    items (fuel + 1) depth cs =
      (found :: (items fuel depth rest).1, (items fuel depth rest).2) := by
  rw [items, h]
  rfl

/-- A member of an object, by its name and its value. -/
theorem members_named (hname : stringRest (marked.length + 1) marked = .whole name (':' :: cs))
    (h : value fuel depth cs = (found, rest)) :
    members (fuel + 1) depth ('"' :: marked) =
      match skipSpace rest with
      | '\x7d' :: rest => ([(String.ofList name, found)], true, rest)
      | ',' :: rest =>
        ((String.ofList name, found) :: (members fuel depth rest).1, (members fuel depth rest).2)
      | _ => ([(String.ofList name, found)], false, []) := by
  obtain ⟨rfl, rfl⟩ := Prod.mk.inj h
  rw [members, skipSpace_cons _ rfl]
  split
  · next heq =>
    obtain rfl := (List.cons.inj heq).2
    rw [hname]
    rfl
  · next hne => exact absurd rfl (hne marked)

end

/-- The items of an array are read up to its closing bracket, if each item is. -/
theorem items_separated {depth : Nat} {found : List Json} (hfound : found ≠ [])
    (hread : ∀ item ∈ found, ∀ {fuel : Nat} {rest : List Char}, (chars item).length ≤ fuel →
      Closes rest → value fuel depth (chars item ++ rest) = (item, rest))
    {fuel : Nat} (hfuel : (separated chars found).length < fuel) (rest : List Char) :
    items fuel depth (separated chars found ++ ']' :: rest) = (found, true, rest) := by
  induction found generalizing fuel with
  | nil => exact absurd rfl hfound
  | cons item found ih =>
    obtain ⟨fuel, rfl⟩ := Nat.exists_eq_succ_of_ne_zero (Nat.ne_zero_of_lt hfuel)
    cases found with
    | nil =>
      rw [separated] at hfuel ⊢
      exact items_bracket (hread item List.mem_cons_self (Nat.le_of_lt_succ hfuel) (.bracket rest))
    | cons next found =>
      rw [separated_cons_cons] at hfuel ⊢
      simp only [List.length_append, List.length_cons] at hfuel
      rw [List.append_assoc, List.cons_append,
        items_comma (hread item List.mem_cons_self (by omega) (.comma _)),
        ih (List.cons_ne_nil _ _) (fun item hitem => hread item (List.mem_cons_of_mem _ hitem))
          (by omega)]

/-- The members of an object are read up to its closing bracket, if each value is. -/
theorem members_separated {depth : Nat} {found : List (String × Json)} (hfound : found ≠ [])
    (hread : ∀ member ∈ found, ∀ {fuel : Nat} {rest : List Char},
      (chars member.2).length ≤ fuel → Closes rest →
        value fuel depth (chars member.2 ++ rest) = (member.2, rest))
    {fuel : Nat} (hfuel : (separated memberText found).length < fuel) (rest : List Char) :
    members fuel depth (separated memberText found ++ '\x7d' :: rest) = (found, true, rest) := by
  induction found generalizing fuel with
  | nil => exact absurd rfl hfound
  | cons member found ih =>
    obtain ⟨fuel, rfl⟩ := Nat.exists_eq_succ_of_ne_zero (Nat.ne_zero_of_lt hfuel)
    -- The name is read first, then the value as far as what closes it.
    have hstep : ∀ {rest : List Char}, (memberText member).length ≤ fuel → Closes rest →
        ∃ marked cs, memberText member ++ rest = '"' :: marked ∧
          stringRest (marked.length + 1) marked = .whole member.1.toList (':' :: cs) ∧
          value fuel depth cs = (member.2, rest) := by
      intro rest hlength hrest
      obtain ⟨marked, hquote, hname⟩ :=
        stringRest_quote member.1 (':' :: (chars member.2 ++ rest))
      rw [memberText, List.length_append, List.length_cons] at hlength
      refine ⟨marked, _, ?_, hname, hread member List.mem_cons_self (by omega) hrest⟩
      rw [memberText, List.append_assoc, List.cons_append, hquote]
    cases found with
    | nil =>
      rw [separated] at hfuel ⊢
      obtain ⟨marked, cs, htext, hname, hvalue⟩ :=
        hstep (Nat.le_of_lt_succ hfuel) (.brace rest)
      rw [htext, members_named hname hvalue, String.ofList_toList]
      rfl
    | cons next found =>
      rw [separated_cons_cons] at hfuel ⊢
      simp only [List.length_append, List.length_cons] at hfuel
      obtain ⟨marked, cs, htext, hname, hvalue⟩ := hstep (by omega)
        (.comma (separated memberText (next :: found) ++ '\x7d' :: rest))
      rw [List.append_assoc, List.cons_append, htext, members_named hname hvalue,
        String.ofList_toList, skipSpace_cons _ rfl]
      change ((member :: (members fuel depth _).1, (members fuel depth _).2) : _ × _) = _
      rw [ih (List.cons_ne_nil _ _) (fun member hmember => hread member
        (List.mem_cons_of_mem _ hmember)) (by omega)]

/-- Items with something behind them begin with the first one. -/
theorem exists_separated_cons {α : Type} (write : α → List Char) (a : α) (l : List α)
    (rest : List Char) : ∃ more, separated write (a :: l) ++ rest = write a ++ more := by
  cases l with
  | nil => exact ⟨rest, rfl⟩
  | cons b l => exact ⟨_, by rw [separated_cons_cons, List.append_assoc]⟩

/-- A document takes at least one character. -/
theorem Plain.exists_fuel {a : Json} (h : a.Plain) {fuel : Nat} (hfuel : (chars a).length ≤ fuel) :
    ∃ more, fuel = more + 1 := by
  obtain ⟨c, more, heq, -⟩ := h.exists_cons
  rw [heq, List.length_cons] at hfuel
  exact Nat.exists_eq_succ_of_ne_zero (by omega)

/-- **A printed document is read back**, and what follows it is left. -/
theorem Fits.value_chars {levels : Nat} {a : Json} (h : a.Fits levels) {fuel depth : Nat}
    {rest : List Char} (hfuel : (chars a).length ≤ fuel) (hdepth : depth + levels ≤ nestingLimit)
    (hrest : Closes rest) : value fuel depth (chars a ++ rest) = (a, rest) := by
  obtain ⟨fuel, rfl⟩ := h.plain.exists_fuel hfuel
  induction h generalizing fuel depth rest with
  | null levels => rfl
  | bool levels value => cases value <;> rfl
  | @integer levels n hword =>
    cases n with
    | ofNat n =>
      obtain ⟨c, more, heq, hc⟩ := exists_toDigits_eq_cons n
      have hvalue := numberValue_toDigits (n := n) false (by simp) hword hrest
      change value (fuel + 1) depth (Nat.toDigits 10 n ++ rest) = _
      rw [heq, List.cons_append] at hvalue ⊢
      exact (value_digit fuel depth _ hc).trans hvalue
    | negSucc n => exact numberValue_toDigits true (by simp) hword hrest
  | string levels s =>
    obtain ⟨marked, hquote, hname⟩ := stringRest_quote s rest
    change value (fuel + 1) depth (quote s ++ rest) = _
    rw [hquote, value_quote, hname]
    dsimp only
    rw [String.ofList_toList]
  | @list levels found hitems ih =>
    have hlimit : depth < nestingLimit := by omega
    rw [Json.list, chars, itemChars_eq] at hfuel ⊢
    simp only [if_true, List.length_append, List.length_cons, List.length_nil] at hfuel
    simp only [if_true, List.cons_append, List.append_assoc, List.nil_append]
    cases found with
    | nil => exact congrArg (·, rest) (if_pos hlimit)
    | cons item found =>
      have hread : ∀ item' ∈ item :: found, ∀ {fuel : Nat} {rest : List Char},
          (chars item').length ≤ fuel → Closes rest →
            value fuel (depth + 1) (chars item' ++ rest) = (item', rest) := by
        intro item' hitem fuel rest hlength hrest
        obtain ⟨fuel, rfl⟩ := (hitems item' hitem).plain.exists_fuel hlength
        exact ih item' hitem (by omega) hrest fuel hlength
      have hlength : (separated chars (item :: found)).length < fuel := by omega
      have hfound := items_separated (List.cons_ne_nil item found) hread hlength rest
      have hfirst := (hitems item List.mem_cons_self).plain
      obtain ⟨more, hmore⟩ := exists_separated_cons chars item found (']' :: rest)
      rw [hmore] at hfound ⊢
      have hspace := hfirst.skipSpace_chars more
      exact value_list (hspace.symm ▸ hfirst.chars_append_ne (by simp) more) hlimit
        (hspace.symm ▸ hfound)
  | @record levels found hmembers ih =>
    have hlimit : depth < nestingLimit := by omega
    rw [Json.record, chars, memberChars_eq] at hfuel ⊢
    simp only [if_true, List.length_append, List.length_cons, List.length_nil] at hfuel
    simp only [if_true, List.cons_append, List.append_assoc, List.nil_append]
    cases found with
    | nil => exact congrArg (·, rest) (if_pos hlimit)
    | cons member found =>
      have hread : ∀ member' ∈ member :: found, ∀ {fuel : Nat} {rest : List Char},
          (chars member'.2).length ≤ fuel → Closes rest →
            value fuel (depth + 1) (chars member'.2 ++ rest) = (member'.2, rest) := by
        intro member' hmember fuel rest hlength hrest
        obtain ⟨fuel, rfl⟩ := (hmembers member' hmember).plain.exists_fuel hlength
        exact ih member' hmember (by omega) hrest fuel hlength
      have hlength : (separated memberText (member :: found)).length < fuel := by omega
      have hfound := members_separated (List.cons_ne_nil member found) hread hlength rest
      obtain ⟨more, hmore⟩ := exists_separated_cons memberText member found ('\x7d' :: rest)
      rw [hmore] at hfound ⊢
      have hspace : skipSpace (memberText member ++ more) = memberText member ++ more :=
        skipSpace_cons _ rfl
      refine value_record (fun rest heq => ?_) hlimit (hspace.symm ▸ hfound)
      rw [hspace] at heq
      exact absurd (List.cons.inj heq).1 (by decide)

/-- **Reading undoes printing.** -/
theorem Fits.read_print {levels : Nat} {a : Json} (h : a.Fits levels)
    (hlevels : levels ≤ nestingLimit) : read a.print = (a, true) := by
  have hvalue : value ((chars a).length + 1) 0 (chars a ++ []) = (a, []) :=
    h.value_chars (Nat.le_succ _) (by omega) .nil
  rw [List.append_nil] at hvalue
  rw [read, print, String.toList_ofList, hvalue]
  rfl

end SchemaMigration.Json
