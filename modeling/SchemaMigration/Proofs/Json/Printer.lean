import Mathlib.Data.List.Basic
import Mathlib.Tactic.IntervalCases
import SchemaMigration.Json.Printer
import SchemaMigration.Json.Reader

/-!
# Printed documents end where they end

What is printed for a document can be told from what follows it (`Json.Plain.chars_append_inj`): a
string ends with the first quotation mark that is not escaped, an integer with its last digit, an
array or an object with the bracket after its last item. So no two documents are printed alike. This
is shown for the documents that codecs write, which are complete and whose numbers are integers
(`Json.Plain`).
-/

namespace SchemaMigration.Json

/-! ## Strings -/

/-- An escaped character is read as one character of a string. -/
theorem stringRest_escapeChar (fuel : Nat) (c : Char) (rest : List Char) :
    stringRest (fuel + 1) (escapeChar c ++ rest) = (stringRest fuel rest).cons c := by
  unfold escapeChar
  split
  · next heq => rw [heq]; rfl
  split
  · next heq => rw [heq]; rfl
  split
  · next heq => rw [heq]; rfl
  split
  · next heq => rw [heq]; rfl
  split
  · next heq => rw [heq]; rfl
  split
  · next heq => rw [← Char.ofNat_toNat c, heq]; rfl
  split
  · next heq => rw [← Char.ofNat_toNat c, heq]; rfl
  split
  · next hcontrol =>
    have hhex : ∀ n < 32, fourHex? ('0' :: '0' :: hexDigit (n / 16) :: hexDigit (n % 16) :: rest) =
        some (n, rest) := by
      intro n hn
      interval_cases n <;> rfl
    have hread : stringRest (fuel + 1) ('\\' :: 'u' :: '0' :: '0' :: hexDigit (c.toNat / 16) ::
        hexDigit (c.toNat % 16) :: rest) = (stringRest fuel rest).cons (Char.ofNat c.toNat) := by
      rw [stringRest, hhex _ hcontrol]
      dsimp only
      rw [if_neg (by simp; omega), if_neg (by simp; omega)]
    rw [← Char.ofNat_toNat c]
    simpa using hread
  · next hquote hback _ _ _ _ _ hcontrol =>
    rw [List.singleton_append]
    conv_lhs => unfold stringRest
    dsimp only
    split
    · next heq => cases heq
    · next heq => exact absurd (List.cons.inj heq).1 hquote
    · next heq => exact absurd (List.cons.inj heq).1 hback
    · next heq => exact absurd (List.cons.inj heq).1 hback
    · next heq =>
      obtain ⟨rfl, rfl⟩ := List.cons.inj heq
      rw [if_neg hcontrol]

/-- A string is read up to its closing mark. -/
theorem stringRest_quoted {content : List Char} (rest : List Char) {fuel : Nat}
    (hfuel : content.length < fuel) :
    stringRest fuel (content.flatMap escapeChar ++ '"' :: rest) = .whole content rest := by
  induction content generalizing fuel with
  | nil =>
    obtain ⟨fuel, rfl⟩ := Nat.exists_eq_succ_of_ne_zero (Nat.ne_of_gt hfuel)
    rfl
  | cons c content ih =>
    obtain ⟨fuel, rfl⟩ := Nat.exists_eq_succ_of_ne_zero (Nat.ne_zero_of_lt hfuel)
    rw [List.flatMap_cons, List.append_assoc, stringRest_escapeChar,
      ih (by simpa using hfuel)]
    rfl

/-- A string in quotation marks ends with its closing mark. -/
theorem quoted_append_inj {a b : String} {x y : List Char} (h : quote a ++ x = quote b ++ y) :
    a = b ∧ x = y := by
  simp only [quote, List.cons_append, List.append_assoc, List.nil_append, List.cons.injEq,
    true_and] at h
  have hread := congrArg (stringRest (a.toList.length + b.toList.length + 1)) h
  rw [stringRest_quoted x (by omega), stringRest_quoted y (by omega)] at hread
  obtain ⟨hcontent, hrest⟩ := StringRest.whole.inj hread
  exact ⟨String.toList_inj.1 hcontent, hrest⟩

/-! ## Integers -/

/-- No digit follows. -/
def Ends (rest : List Char) : Prop := ∀ c ∈ rest.head?, c.isDigit = false

/-- What begins with no digit follows numbers. -/
theorem ends_cons {c : Char} {rest : List Char} (hc : c.isDigit = false) : Ends (c :: rest) := by
  rintro _ ⟨⟩
  exact hc

/-- The digits of a number are the digits at the front of a text that begins with it. -/
theorem takeWhile_toDigits (n : Nat) {rest : List Char} (hrest : Ends rest) :
    (Nat.toDigits 10 n ++ rest).takeWhile Char.isDigit = Nat.toDigits 10 n := by
  rw [List.takeWhile_append_of_pos fun _ hc =>
    Nat.isDigit_of_mem_toDigits (by decide) (by decide) hc]
  cases rest with
  | nil => rw [List.takeWhile_nil, List.append_nil]
  | cons c rest => rw [List.takeWhile_cons, hrest c rfl, if_neg Bool.false_ne_true, List.append_nil]

/-- A number ends with its last digit. -/
theorem toDigits_append_inj {m n : Nat} {x y : List Char} (hx : Ends x) (hy : Ends y)
    (h : Nat.toDigits 10 m ++ x = Nat.toDigits 10 n ++ y) : m = n ∧ x = y := by
  have hdigits := congrArg (List.takeWhile Char.isDigit) h
  rw [takeWhile_toDigits m hx, takeWhile_toDigits n hy] at hdigits
  have hvalue := congrArg (Nat.ofDigitChars 10 · 0) hdigits
  simp only [Nat.ofDigitChars_ten_toDigits] at hvalue
  exact ⟨hvalue, List.append_cancel_left (hdigits ▸ h)⟩

/-- A number begins with a digit. -/
theorem exists_toDigits_eq_cons (n : Nat) :
    ∃ c rest, Nat.toDigits 10 n = c :: rest ∧ c.isDigit = true := by
  obtain ⟨c, rest, heq⟩ := List.exists_cons_of_ne_nil (Nat.toDigits_ne_nil : Nat.toDigits 10 n ≠ [])
  exact ⟨c, rest, heq,
    Nat.isDigit_of_mem_toDigits (by decide) (by decide) (heq ▸ List.mem_cons_self)⟩

/-- An integer ends with its last digit. -/
theorem integerChars_append_inj {m n : Int} {x y : List Char} (hx : Ends x) (hy : Ends y)
    (h : integerChars m ++ x = integerChars n ++ y) : m = n ∧ x = y := by
  -- A natural number does not begin with a sign.
  have hsign : ∀ {m : Nat} {x y : List Char}, Nat.toDigits 10 m ++ x ≠ '-' :: y := by
    intro m x y h
    obtain ⟨c, rest, heq, hc⟩ := exists_toDigits_eq_cons m
    rw [heq] at h
    rw [(List.cons.inj h).1] at hc
    cases hc
  cases m with
  | ofNat m =>
    cases n with
    | ofNat n =>
      obtain ⟨rfl, hrest⟩ := toDigits_append_inj hx hy h
      exact ⟨rfl, hrest⟩
    | negSucc n => exact absurd h hsign
  | negSucc m =>
    cases n with
    | ofNat n => exact absurd h.symm hsign
    | negSucc n =>
      obtain ⟨hvalue, hrest⟩ := toDigits_append_inj hx hy (List.cons.inj h).2
      obtain rfl := Nat.succ.inj hvalue
      exact ⟨rfl, hrest⟩

/-! ## Sequences -/

/-- Texts with commas between them. -/
def separated {α : Type} (write : α → List Char) : List α → List Char
  | [] => []
  | [a] => write a
  | a :: rest => write a ++ ',' :: separated write rest

theorem separated_cons_cons {α : Type} (write : α → List Char) (a b : α) (rest : List α) :
    separated write (a :: b :: rest) = write a ++ ',' :: separated write (b :: rest) := rfl

/-- The items of an array have commas between them. -/
theorem itemChars_eq (items : List Json) : itemChars items = separated chars items := by
  induction items with
  | nil => rw [itemChars, separated]
  | cons item items ih =>
    cases items with
    | nil => rw [itemChars, separated]
    | cons next items =>
      rw [itemChars, separated, ih]
      all_goals simp

/-- A member of an object: its name and its value. -/
def memberText (member : String × Json) : List Char := quote member.1 ++ ':' :: chars member.2

/-- The members of an object have commas between them. -/
theorem memberChars_eq (members : List (String × Json)) :
    memberChars members = separated memberText members := by
  induction members with
  | nil => rw [memberChars, separated]
  | cons member members ih =>
    cases members with
    | nil => rw [memberChars, separated, memberText]
    | cons next members =>
      rw [memberChars, separated, ih, memberText, List.append_assoc, List.cons_append]
      all_goals simp

/-- A sequence ends with the bracket after its last item, if every item ends where it ends and none
begins with the bracket. -/
theorem separated_append_inj {α : Type} {write : α → List Char} {close : Char}
    (hcomma : close ≠ ',') (hdigit : close.isDigit = false) {as bs : List α} {x y : List Char}
    (hends : ∀ a ∈ as, ∀ b ∈ bs, ∀ {x y : List Char}, Ends x → Ends y →
      write a ++ x = write b ++ y → a = b ∧ x = y)
    (hopenA : ∀ a ∈ as, ∀ x y : List Char, write a ++ x ≠ close :: y)
    (hopenB : ∀ b ∈ bs, ∀ x y : List Char, write b ++ x ≠ close :: y)
    (h : separated write as ++ close :: x = separated write bs ++ close :: y) :
    as = bs ∧ x = y := by
  -- A text that goes on with a comma, or ends.
  have hstep : ∀ (a : α) (rest : List α) (x : List Char), ∃ more, Ends more ∧
      separated write (a :: rest) ++ close :: x = write a ++ more ∧
      more = match rest with
        | [] => close :: x
        | next :: rest => ',' :: (separated write (next :: rest) ++ close :: x) := by
    intro a rest x
    cases rest with
    | nil => exact ⟨_, ends_cons hdigit, rfl, rfl⟩
    | cons next rest => exact ⟨_, ends_cons rfl, by simp [separated], rfl⟩
  induction as generalizing bs with
  | nil =>
    cases bs with
    | nil => exact ⟨rfl, (List.cons.inj h).2⟩
    | cons b bs =>
      obtain ⟨more, -, hmore, -⟩ := hstep b bs y
      exact absurd (hmore.symm.trans h.symm) (hopenB b List.mem_cons_self _ _)
  | cons a as ih =>
    obtain ⟨more, hmoreEnds, hmore, htail⟩ := hstep a as x
    cases bs with
    | nil => exact absurd (hmore.symm.trans h) (hopenA a List.mem_cons_self _ _)
    | cons b bs =>
      obtain ⟨others, hothersEnds, hothers, hothersTail⟩ := hstep b bs y
      obtain ⟨rfl, hrest⟩ := hends a List.mem_cons_self b List.mem_cons_self hmoreEnds hothersEnds
        (hmore.symm.trans (h.trans hothers))
      rw [htail, hothersTail] at hrest
      cases as with
      | nil =>
        cases bs with
        | nil => exact ⟨rfl, (List.cons.inj hrest).2⟩
        | cons next bs => exact absurd (List.cons.inj hrest).1 hcomma
      | cons next as =>
        cases bs with
        | nil => exact absurd (List.cons.inj hrest).1.symm hcomma
        | cons other bs =>
          obtain ⟨heq, hxy⟩ := ih (fun a ha b hb => hends a (List.mem_cons_of_mem _ ha) b
              (List.mem_cons_of_mem _ hb)) (fun a ha => hopenA a (List.mem_cons_of_mem _ ha))
            (fun b hb => hopenB b (List.mem_cons_of_mem _ hb)) (List.cons.inj hrest).2
          exact ⟨by rw [heq], hxy⟩

/-! ## Documents -/

/-- A document is complete, and its numbers are integers. -/
inductive Plain : Json → Prop
  | null : Plain .null
  | bool (value : Bool) : Plain (.bool value)
  | integer (value : Int) : Plain (.integer value)
  | string (value : String) : Plain (.string value)
  | list {items : List Json} (hitems : ∀ item ∈ items, Plain item) : Plain (.list items)
  | record {members : List (String × Json)} (hmembers : ∀ member ∈ members, Plain member.2) :
      Plain (.record members)

/-- The character that begins a document; one for both truth values and one for all numbers. -/
def opening : Json → Char
  | .null => 'n'
  | .bool _ => 't'
  | .number _ => '0'
  | .string _ => '"'
  | .array .. => '['
  | .object .. => '\x7b'
  | .refused _ | .broken => '!'

@[simp]
theorem opening_null : null.opening = 'n' := rfl

@[simp]
theorem opening_bool (value : Bool) : (bool value).opening = 't' := rfl

@[simp]
theorem opening_integer (value : Int) : (integer value).opening = '0' := rfl

@[simp]
theorem opening_string (value : String) : (string value).opening = '"' := rfl

@[simp]
theorem opening_list (items : List Json) : (list items).opening = '[' := rfl

@[simp]
theorem opening_record (members : List (String × Json)) : (record members).opening = '\x7b' := rfl

namespace Plain

variable {a b : Json} {x y : List Char}

/-- The first character of a document tells how it begins. -/
theorem exists_cons (h : a.Plain) : ∃ c rest, chars a = c :: rest ∧
    a.opening = if c.isDigit || c = '-' then '0' else if c = 'f' then 't' else c := by
  cases h with
  | integer value =>
    cases value with
    | ofNat n =>
      obtain ⟨c, rest, hdigits, hc⟩ := exists_toDigits_eq_cons n
      exact ⟨c, rest, hdigits, by simp [hc]⟩
    | negSucc n => exact ⟨_, _, rfl, rfl⟩
  | bool value => cases value <;> exact ⟨_, _, rfl, rfl⟩
  | null | string value | list hitems | record hmembers => exact ⟨_, _, rfl, rfl⟩

/-- Documents that are printed alike begin alike. -/
theorem opening_eq (ha : a.Plain) (hb : b.Plain) (h : chars a ++ x = chars b ++ y) :
    a.opening = b.opening := by
  obtain ⟨c, _, hc, hopenA⟩ := ha.exists_cons
  obtain ⟨d, _, hd, hopenB⟩ := hb.exists_cons
  rw [hc, hd] at h
  rw [hopenA, hopenB, (List.cons.inj h).1]

/-- No document begins with a closing bracket. -/
theorem chars_append_ne (h : a.Plain) {close : Char} (hclose : close ∈ [']', '\x7d'])
    (x y : List Char) : chars a ++ x ≠ close :: y := by
  intro heq
  obtain ⟨c, rest, hc, hopen⟩ := h.exists_cons
  rw [hc] at heq
  obtain rfl := (List.cons.inj heq).1
  rcases List.mem_pair.1 hclose with rfl | rfl <;> cases h <;> simp at hopen

/-- **A document ends where it ends**: it can be told from a text that begins with it. -/
theorem chars_append_inj (ha : a.Plain) (hb : b.Plain) (hx : Ends x) (hy : Ends y)
    (h : chars a ++ x = chars b ++ y) : a = b ∧ x = y := by
  have hopen := opening_eq ha hb h
  induction ha generalizing b x y with
  | null =>
    cases hb with
    | null => exact ⟨rfl, List.append_cancel_left h⟩
    | _ => simp at hopen
  | bool value =>
    cases hb with
    | bool other =>
      have heq : value = other := by
        cases value <;> cases other <;> first | rfl | exact absurd (List.cons.inj h).1 (by decide)
      obtain rfl := heq
      exact ⟨rfl, List.append_cancel_left h⟩
    | _ => simp at hopen
  | integer value =>
    cases hb with
    | integer other =>
      obtain ⟨rfl, hrest⟩ := integerChars_append_inj hx hy h
      exact ⟨rfl, hrest⟩
    | _ => simp at hopen
  | string value =>
    cases hb with
    | string other =>
      obtain ⟨rfl, hrest⟩ := quoted_append_inj h
      exact ⟨rfl, hrest⟩
    | _ => simp at hopen
  | @list items hitems ih =>
    cases hb with
    | @list others hothers =>
      rw [Json.list, Json.list, chars, chars, itemChars_eq, itemChars_eq] at h
      simp only [if_true, List.cons_append, List.append_assoc, List.nil_append, List.cons.injEq,
        true_and] at h
      obtain ⟨rfl, hrest⟩ := separated_append_inj (by decide) (by decide)
        (fun item hitem other hother _ _ hx hy heq => ih item hitem (hothers other hother) hx hy heq
          (opening_eq (hitems item hitem) (hothers other hother) heq))
        (fun item hitem => (hitems item hitem).chars_append_ne (by simp))
        (fun other hother => (hothers other hother).chars_append_ne (by simp)) h
      exact ⟨rfl, hrest⟩
    | _ => simp at hopen
  | @record members hmembers ih =>
    cases hb with
    | @record others hothers =>
      rw [Json.record, Json.record, chars, chars, memberChars_eq, memberChars_eq] at h
      simp only [if_true, List.cons_append, List.append_assoc, List.nil_append, List.cons.injEq,
        true_and] at h
      -- A member is its name, which ends with a quotation mark, and its value.
      have hmember : ∀ member ∈ members, ∀ other ∈ others, ∀ {x y : List Char}, Ends x → Ends y →
          memberText member ++ x = memberText other ++ y → member = other ∧ x = y := by
        intro member hmember other hother x y hx hy heq
        rw [memberText, memberText, List.append_assoc, List.append_assoc] at heq
        obtain ⟨hname, heq⟩ := quoted_append_inj heq
        have heq := (List.cons.inj heq).2
        obtain ⟨hvalue, hrest⟩ := ih member hmember (hothers other hother) hx hy heq
          (opening_eq (hmembers member hmember) (hothers other hother) heq)
        exact ⟨Prod.ext hname hvalue, hrest⟩
      have hquote : ∀ (member : String × Json) (x y : List Char),
          memberText member ++ x ≠ '\x7d' :: y := fun _ _ _ heq =>
        absurd (List.cons.inj heq).1 (by decide)
      obtain ⟨rfl, hrest⟩ := separated_append_inj (by decide) (by decide) hmember
        (fun member _ => hquote member) (fun other _ => hquote other) h
      exact ⟨rfl, hrest⟩
    | _ => simp at hopen

end Plain

end SchemaMigration.Json
