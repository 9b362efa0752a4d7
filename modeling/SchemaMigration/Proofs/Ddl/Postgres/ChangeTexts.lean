import SchemaMigration.Ddl.Postgres.Alter
import SchemaMigration.Proofs.Ddl.Alteration
import SchemaMigration.Proofs.Dialect.Reading

/-!
# Changes are read from their texts

What stands behind the name of a table, a column or a policy in a statement that alters it is read
clause by clause: identifiers by the rules of PostgreSQL, lists up to their commas, conditions up to
the parenthesis that closes them, and a type up to the clause that follows it. Where the texts that
are written as they are, which are types, storage parameters and conditions, end where they seem to,
every change is read back from its text (`readTableChange_render`, `readColumnChange_render`,
`readPolicyClauses_policyText`). A change to the default tablespace is read as one that names it.
-/

namespace SchemaMigration.Ddl.Postgres

variable {cs rest : List Char} {lead other : String}

/-! ## Pieces of statements -/

/-- The text behind the words that it begins with. -/
def behind? (lead : String) (cs : List Char) : Option (List Char) :=
  if lead.toList.isPrefixOf cs then some (cs.drop lead.toList.length) else none

/-- A text is what stands behind the words in front of it. -/
theorem behind?_append : behind? lead (lead.toList ++ cs) = some cs := by
  simp [behind?]

/-- A text that begins with other words does not begin with these. -/
theorem behind?_of_apart (h : Apart lead other) : behind? lead (other.toList ++ cs) = none := by
  refine if_neg fun hlead => ?_
  exact (List.prefix_or_prefix_of_prefix (List.isPrefixOf_iff_prefix.1 hlead)
    (List.prefix_append _ _)).elim h.1 h.2

section
variable {α : Type} {read : List Char → Option α}

/-- Reads what stands behind some words. -/
def clause? (lead : String) (read : List Char → Option α) (cs : List Char) : Option α :=
  (behind? lead cs).bind read

/-- Behind the words in front of it a text is read. -/
theorem clause?_append : clause? lead read (lead.toList ++ cs) = read cs := by
  rw [clause?, behind?_append, Option.bind_some]

/-- Behind other words nothing is read. -/
theorem clause?_of_apart (h : Apart lead other) :
    clause? lead read (other.toList ++ cs) = none := by
  rw [clause?, behind?_of_apart h, Option.bind_none]

/-- Reads nothing more. -/
def ends? (a : α) (cs : List Char) : Option α := if cs.isEmpty then some a else none

end

/-- What follows an identifier is told from a part of it. -/
def EndsWord (rest : List Char) : Prop := ∀ c ∈ rest.head?, c = ' ' ∨ c = ','

/-- An identifier is read up to what follows it. -/
theorem readIdentifier_quote (ident : String) (hrest : EndsWord rest) :
    Dialect.postgres.readIdentifier ((quote ident).toList ++ rest) = some (ident.toList, rest) := by
  have hlist : rest = (String.ofList rest).toList := by simp
  have hends : ∀ c ∈ (String.ofList rest).toList.head?,
      Sql.continuesWord .postgres c = false ∧ c ≠ '"' := by
    rw [← hlist]
    intro c hc
    rcases hrest c hc with rfl | rfl <;> decide
  rw [hlist, ← String.toList_append]
  exact (Dialect.identifier_read_back_iff _ _ _ fun c hc => (hends c hc).1).2
    ⟨fun hgoes => (hends _ hgoes.2.2).2 rfl, fun hdialect => by cases hdialect.1⟩

/-- The identifier that a text consists of. -/
def identifier? (cs : List Char) : Option String :=
  match Dialect.postgres.readIdentifier cs with
  | some (name, []) => some (String.ofList name)
  | _ => none

/-- An identifier that stands alone is read back. -/
theorem identifier?_quote (ident : String) : identifier? (quote ident).toList = some ident := by
  have hread : Dialect.postgres.readIdentifier ((quote ident).toList ++ []) =
      some (ident.toList, []) := readIdentifier_quote ident (by rintro c ⟨⟩)
  rw [List.append_nil] at hread
  simp [identifier?, hread]

/-- The texts between the commas of a list. -/
def listed : List Char → List (List Char)
  | [] => [[]]
  | ',' :: ' ' :: cs => [] :: listed cs
  | c :: cs =>
    match listed cs with
    | [] => [[c]]
    | first :: others => (c :: first) :: others

/-- A text without commas goes up to the first comma. -/
theorem listed_append (h : ',' ∉ cs) :
    listed (cs ++ ',' :: ' ' :: rest) = cs :: listed rest := by
  induction cs with
  | nil => rfl
  | cons c cs ih =>
    obtain ⟨hc, hcs⟩ := not_or.1 (mt List.mem_cons.2 h)
    rw [List.cons_append, listed, ih hcs]
    exact fun _ heq => absurd heq.symm hc

/-- A text without commas is the only one. -/
theorem listed_eq (h : ',' ∉ cs) : listed cs = [cs] := by
  induction cs with
  | nil => rfl
  | cons c cs ih =>
    obtain ⟨hc, hcs⟩ := not_or.1 (mt List.mem_cons.2 h)
    rw [listed, ih hcs]
    exact fun _ heq => absurd heq.symm hc

/-- Texts without commas are read back from their list. -/
theorem listed_commaList {texts : List String} (hne : texts ≠ [])
    (h : ∀ text ∈ texts, ',' ∉ text.toList) :
    listed (Text.commaList texts).toList = texts.map String.toList := by
  unfold Text.commaList Text.join
  induction texts with
  | nil => exact absurd rfl hne
  | cons text texts ih =>
    have htext := h text List.mem_cons_self
    cases texts with
    | nil => rw [String.intercalate_singleton, listed_eq htext]; rfl
    | cons next texts =>
      rw [String.intercalate_cons_cons, String.toList_append, String.toList_append,
        List.append_assoc]
      exact (listed_append htext).trans (congrArg _
        (ih (List.cons_ne_nil _ _) fun other hin => h other (List.mem_cons_of_mem _ hin)))

/-- What stands in front of the closing parenthesis at the end of a text. -/
def enclosed? (cs : List Char) : Option (List Char) :=
  if cs.getLast? = some ')' then some cs.dropLast else none

/-- What is enclosed in a text is read back. -/
theorem enclosed?_append (text : String) : enclosed? (text ++ ")").toList = some text.toList := by
  simp [enclosed?]

/-! ## Tables -/

/-- A storage parameter with its value. -/
def assignment? (cs : List Char) : Option (String × String) :=
  (behind? " = " (cs.dropWhile (· ≠ ' '))).map fun value =>
    (String.ofList (cs.takeWhile (· ≠ ' ')), String.ofList value)

/-- Storage parameters with their values, up to the parenthesis that closes their list. -/
def assignments? (cs : List Char) : Option (List (String × String)) :=
  (enclosed? cs).bind fun cs => (listed cs).mapM assignment?

/-- Storage parameters, up to the parenthesis that closes their list. -/
def names? (cs : List Char) : Option (List String) :=
  (enclosed? cs).map fun cs => (listed cs).map String.ofList

/-- What a statement about a table says behind its name. -/
def readTableChange (cs : List Char) : Option TableChange :=
  clause? "SET TABLESPACE " (fun cs => (identifier? cs).map (.tablespace ∘ some)) cs <|>
  clause? "SET UNLOGGED" (ends? (.unlogged true)) cs <|>
  clause? "SET LOGGED" (ends? (.unlogged false)) cs <|>
  clause? "SET (" (fun cs => (assignments? cs).map .set) cs <|>
  clause? "RESET (" (fun cs => (names? cs).map .reset) cs

/-- A storage parameter and its value end where they seem to. -/
def PlainOption (option : String × String) : Prop :=
  ' ' ∉ option.1.toList ∧ ',' ∉ option.1.toList ∧ ',' ∉ option.2.toList

/-- Whether a storage parameter and its value end where they seem to can be computed. -/
instance (option : String × String) : Decidable (PlainOption option) :=
  inferInstanceAs (Decidable (_ ∧ _))

/-- A storage parameter is read back with its value. -/
theorem assignment?_append {option : String × String} (h : PlainOption option) :
    assignment? (option.1 ++ " = " ++ option.2).toList = some option := by
  have hall : ∀ c ∈ option.1.toList, decide (c ≠ ' ') = true := fun c hc =>
    decide_eq_true fun heq => h.1 (heq ▸ hc)
  rw [assignment?, String.toList_append, String.toList_append, List.append_assoc,
    List.dropWhile_append_of_pos hall, List.takeWhile_append_of_pos hall]
  have hbehind : behind? " = " ((" = ".toList ++ option.2.toList).dropWhile (· ≠ ' ')) =
      some option.2.toList := behind?_append
  rw [hbehind]
  simp

/-- Storage parameters are read back with their values. -/
theorem assignments?_append {options : List (String × String)} (hne : options ≠ [])
    (h : ∀ option ∈ options, PlainOption option) :
    assignments? (Text.commaList (assignments options) ++ ")").toList = some options := by
  have hcomma : ∀ text ∈ assignments options, ',' ∉ text.toList := by
    intro text htext
    obtain ⟨option, hin, rfl⟩ := List.mem_map.1 htext
    obtain ⟨-, hname, hvalue⟩ := h option hin
    simp [hname, hvalue]
  have hsome : assignments options ≠ [] := mt List.map_eq_nil_iff.1 hne
  rw [assignments?, enclosed?_append, Option.bind_some, listed_commaList hsome hcomma]
  clear hne hcomma hsome
  induction options with
  | nil => rfl
  | cons option options ih =>
    have hrest := ih fun other hin => h other (List.mem_cons_of_mem _ hin)
    have hread := assignment?_append (h option List.mem_cons_self)
    simp only [assignments, List.map_cons, List.mapM_cons] at hrest ⊢
    rw [hread, hrest]
    rfl

/-- Storage parameters are read back. -/
theorem names?_append {names : List String} (hne : names ≠ [])
    (h : ∀ name ∈ names, ',' ∉ name.toList) :
    names? (Text.commaList names ++ ")").toList = some names := by
  rw [names?, enclosed?_append, Option.map_some, listed_commaList hne h, List.map_map]
  simp

/-- What a change of a table says: the default tablespace is named. -/
def TableChange.named : TableChange → TableChange
  | tablespace name => tablespace (some (name.getD defaultTablespace))
  | other => other

/-- Storage parameters in a change of a table end where they seem to, and there are some. -/
def TableChange.Plain : TableChange → Prop
  | set options => options ≠ [] ∧ ∀ option ∈ options, PlainOption option
  | reset names => names ≠ [] ∧ ∀ name ∈ names, ',' ∉ name.toList
  | _ => True

/-- A change of a table is read back from its text. -/
theorem readTableChange_render {change : TableChange} (h : change.Plain) :
    readTableChange change.render.toList = some change.named := by
  cases change with
  | tablespace name =>
    rw [TableChange.render, String.toList_append, readTableChange, clause?_append,
      identifier?_quote]
    rfl
  | unlogged value => cases value <;> rfl
  | set options =>
    rw [TableChange.render, String.append_assoc, String.toList_append, readTableChange]
    simp (disch := decide) only [clause?_of_apart, clause?_append, assignments?_append h.1 h.2]
    rfl
  | reset names =>
    rw [TableChange.render, String.append_assoc, String.toList_append, readTableChange]
    simp (disch := decide) only [clause?_of_apart, clause?_append, names?_append h.1 h.2]
    rfl

/-! ## Columns -/

/-- Whether a clause that may stand behind a type begins here. -/
def endsType (cs : List Char) : Bool :=
  " COLLATE ".toList.isPrefixOf cs || " USING ".toList.isPrefixOf cs

/-- The type with which a text begins, and the clauses behind it. -/
def typeText : List Char → List Char × List Char
  | [] => ([], [])
  | c :: cs => if endsType (c :: cs) then ([], c :: cs) else (typeText cs).map (c :: ·) id

/-- Whether the column is converted to its new type, which is all that the clause may say. -/
def converts? (column : String) (dataType cs : List Char) : Option Bool :=
  if cs.isEmpty then some false
  else
    clause? (" USING " ++ column ++ "::") (fun cs => if cs = dataType then some true else none) cs

/-- A type with the clauses behind it. -/
def readType (column : String) (cs : List Char) : Option ColumnChange :=
  let (dataType, rest) := typeText cs
  match behind? " COLLATE " rest with
  | some rest => do
    let (collation, rest) ← Dialect.postgres.readIdentifier rest
    let converts ← converts? column dataType rest
    some (.type (String.ofList dataType) (some (String.ofList collation)) converts)
  | none => (converts? column dataType rest).map (.type (String.ofList dataType) none)

/-- What a statement about a column says behind its name. -/
def readColumnChange (column : String) (cs : List Char) : Option ColumnChange :=
  clause? "TYPE " (readType column) cs <|>
  clause? "SET DEFAULT " (fun cs => some (.default (some (String.ofList cs)))) cs <|>
  clause? "DROP DEFAULT" (ends? (.default none)) cs <|>
  clause? "SET NOT NULL" (ends? (.notNull true)) cs <|>
  clause? "DROP NOT NULL" (ends? (.notNull false)) cs

/-- A type ends where it seems to. -/
def PlainType (dataType : String) : Prop :=
  ¬ " COLLATE".toList <:+: dataType.toList ∧ ¬ " USING".toList <:+: dataType.toList

/-- Whether a type ends where it seems to can be computed. -/
instance (dataType : String) : Decidable (PlainType dataType) :=
  inferInstanceAs (Decidable (_ ∧ _))

/-- A word with a blank in front does not begin in a text without it, unless it begins behind it. -/
theorem not_prefix_append (word : List Char) {c : Char} (hword : ' ' ∉ word)
    (hcs : ¬ ' ' :: word <:+: c :: cs) (hrest : ∀ d ∈ rest.head?, d = ' ') :
    ¬ ' ' :: word <+: c :: cs ++ rest := by
  intro hprefix
  rcases List.prefix_or_prefix_of_prefix hprefix (List.prefix_append _ _) with h | ⟨tail, htail⟩
  · exact hcs h.isInfix
  · -- The word goes on behind the text, where a blank stands.
    obtain ⟨-, hrestWord⟩ := List.cons.inj htail
    cases tail with
    | nil =>
      rw [List.append_nil] at htail
      exact hcs (htail ▸ List.infix_refl _)
    | cons d tail =>
      rw [← htail, List.prefix_append_right_inj] at hprefix
      obtain ⟨others, rfl⟩ := hprefix
      obtain rfl := hrest d rfl
      exact hword (by rw [← hrestWord]; simp)

/-- A type is read up to the clause that follows it. -/
theorem typeText_append {dataType : List Char} (hcollate : ¬ " COLLATE".toList <:+: dataType)
    (husing : ¬ " USING".toList <:+: dataType) (hrest : rest = [] ∨ endsType rest = true) :
    typeText (dataType ++ rest) = (dataType, rest) := by
  have hblank : ∀ d ∈ rest.head?, d = ' ' := by
    intro d hd
    obtain ⟨tail, rfl⟩ := List.head?_eq_some_iff.1 hd
    rcases Bool.or_eq_true_iff.1 (hrest.resolve_left (List.cons_ne_nil _ _)) with h | h
    · exact (List.cons_prefix_cons.1 (List.isPrefixOf_iff_prefix.1 h)).1.symm
    · exact (List.cons_prefix_cons.1 (List.isPrefixOf_iff_prefix.1 h)).1.symm
  induction dataType with
  | nil =>
    cases rest with
    | nil => rfl
    | cons c rest => rw [List.nil_append, typeText, if_pos (hrest.resolve_left (by simp))]
  | cons c dataType ih =>
    have hends : endsType (c :: dataType ++ rest) = false := by
      rw [endsType, Bool.or_eq_false_iff, ← Bool.not_eq_true, ← Bool.not_eq_true,
        List.isPrefixOf_iff_prefix, List.isPrefixOf_iff_prefix]
      exact ⟨fun h => not_prefix_append "COLLATE".toList (by decide) hcollate hblank
          ((List.prefix_append _ [' ']).trans h),
        fun h => not_prefix_append "USING".toList (by decide) husing hblank
          ((List.prefix_append _ [' ']).trans h)⟩
    rw [List.cons_append, typeText, ← List.cons_append, hends, if_neg Bool.false_ne_true,
      ih (fun h => hcollate (List.infix_cons h)) fun h => husing (List.infix_cons h)]
    rfl

/-- A conversion to the type is read back; it ends the type and is told from a collation. -/
theorem converts?_onlyIf (column dataType : String) (converts : Bool) {cs : List Char}
    (hcs : cs = (onlyIf converts (" USING " ++ column ++ "::" ++ dataType)).toList) :
    converts? column dataType.toList cs = some converts ∧ behind? " COLLATE " cs = none ∧
      (cs = [] ∨ endsType cs = true) ∧ EndsWord cs := by
  cases converts with
  | false =>
    subst hcs
    exact ⟨rfl, rfl, .inl rfl, by rintro c ⟨⟩⟩
  | true =>
    have htext : cs = (" USING " ++ column ++ "::").toList ++ dataType.toList := by
      rw [hcs, onlyIf, if_pos rfl, String.toList_append]
    have husing : cs = " USING ".toList ++ (column ++ "::" ++ dataType).toList := by
      rw [hcs, onlyIf, if_pos rfl, String.append_assoc, String.append_assoc, String.toList_append,
        ← String.append_assoc]
    have hsome : cs.isEmpty = false := by
      rw [husing]
      rfl
    refine ⟨?_, ?_, .inr ?_, ?_⟩
    · rw [converts?, hsome, if_neg Bool.false_ne_true, htext, clause?_append, if_pos rfl]
    · rw [husing, behind?_of_apart (by decide)]
    · rw [endsType, husing, Bool.or_eq_true, List.isPrefixOf_iff_prefix,
        List.isPrefixOf_iff_prefix]
      exact .inr (List.prefix_append _ _)
    · rw [husing]
      rintro c ⟨⟩
      exact .inl rfl

/-- The type in a change of a column ends where it seems to. -/
def ColumnChange.Plain : ColumnChange → Prop
  | type dataType _ _ => PlainType dataType
  | _ => True

/-- A type is read back with the clauses behind it. -/
theorem readType_append {column dataType : String} (h : PlainType dataType)
    (collation : Option String) (converts : Bool) :
    readType column (dataType ++ optional " COLLATE " (collation.map quote) ++
      onlyIf converts (" USING " ++ column ++ "::" ++ dataType)).toList =
        some (.type dataType collation converts) := by
  obtain ⟨hconverts, hnone, hends, hword⟩ := converts?_onlyIf column dataType converts rfl
  rw [readType, String.append_assoc, String.toList_append, String.toList_append]
  cases collation with
  | none =>
    have hempty : (optional " COLLATE " (Option.map quote none)).toList = [] := rfl
    rw [hempty, List.nil_append, typeText_append h.1 h.2 hends]
    dsimp only
    rw [hnone]
    dsimp only
    rw [hconverts, Option.map_some, String.ofList_toList]
  | some collation =>
    have hcollate : (optional " COLLATE " (Option.map quote (some collation))).toList =
        " COLLATE ".toList ++ (quote collation).toList := String.toList_append
    rw [hcollate, List.append_assoc, typeText_append h.1 h.2 (.inr ?_)]
    · dsimp only
      rw [behind?_append]
      dsimp only
      rw [readIdentifier_quote collation hword]
      simp [hconverts]
    · rw [endsType, Bool.or_eq_true, List.isPrefixOf_iff_prefix]
      exact .inl (List.prefix_append _ _)

/-- A change of a column is read back from its text. -/
theorem readColumnChange_render {change : ColumnChange} (h : change.Plain) (column : String) :
    readColumnChange column (change.render column).toList = some change := by
  cases change with
  | type dataType collation converts =>
    rw [ColumnChange.render, String.append_assoc, String.append_assoc, String.toList_append,
      readColumnChange, clause?_append, ← String.append_assoc, readType_append h]
    rfl
  | default expression =>
    cases expression with
    | none =>
      rw [ColumnChange.render, ← List.append_nil (String.toList _), readColumnChange]
      simp (disch := decide) only [clause?_of_apart, clause?_append]
      rfl
    | some expression =>
      rw [ColumnChange.render, String.toList_append, readColumnChange]
      simp (disch := decide) only [clause?_of_apart, clause?_append]
      simp
  | notNull value =>
    have htext : (ColumnChange.notNull value).render column =
        if value then "SET NOT NULL" else "DROP NOT NULL" := by
      cases value <;> rfl
    rw [htext]
    cases value <;> rw [← List.append_nil (String.toList _), readColumnChange] <;>
      simp (disch := decide) only [if_true, Bool.false_eq_true, if_false, clause?_of_apart,
        clause?_append] <;> rfl

/-! ## Policies -/

/-- Identifiers with commas between them, at most so many, and the text behind them. -/
def readNames : Nat → List Char → Option (List String × List Char)
  | 0, _ => none
  | count + 1, cs =>
    (Dialect.postgres.readIdentifier cs).bind fun (name, rest) =>
      match behind? ", " rest with
      | none => some ([String.ofList name], rest)
      | some more => (readNames count more).map (Prod.map (String.ofList name :: ·) id)

/-- The roles of a policy, and the text behind them. -/
def readRoles (cs : List Char) : Option (List String × List Char) :=
  match behind? "PUBLIC" cs with
  | some rest => some ([], rest)
  | none => readNames (cs.length + 1) cs

/-- A place in a condition: how many parentheses are open, and the mark that ends the quotation. -/
abbrev Place := Nat × Option Char

/-- The place behind a character, unless this closes the parenthesis in front of the condition. -/
def Place.next : Place → Char → Option Place
  | (depth, some mark), c => some (depth, if c = mark then none else some mark)
  | (depth, none), '(' => some (depth + 1, none)
  | (0, none), ')' => none
  | (depth + 1, none), ')' => some (depth, none)
  | (depth, none), c => some (depth, if c = '\'' ∨ c = '"' then some c else none)

/-- The condition up to the parenthesis that closes the one in front of it, and the text behind. -/
def closed? : Place → List Char → Option (List Char × List Char)
  | _, [] => none
  | place, c :: cs =>
    match place.next c with
    | none => some ([], cs)
    | some next => (closed? next cs).map (Prod.map (c :: ·) id)

/-- The roles in a clause of a policy, and the text behind them. -/
def rolesClause? (cs : List Char) : Option (PolicyClause × List Char) :=
  (readRoles cs).map (Prod.map .roles id)

/-- The condition in a clause of a policy, and the text behind the parenthesis that closes it. -/
def conditionClause? (make : String → PolicyClause) (cs : List Char) :
    Option (PolicyClause × List Char) :=
  (closed? (0, none) cs).map (Prod.map (make ∘ String.ofList) id)

/-- A clause that may be missing, and the text behind it. -/
def optionalClause? (lead : String) (read : List Char → Option (PolicyClause × List Char))
    (cs : List Char) : Option (List PolicyClause × List Char) :=
  match behind? lead cs with
  | none => some ([], cs)
  | some cs => (read cs).map (Prod.map ([·]) id)

/-- What a statement about a policy says behind its name. -/
def readPolicyClauses (cs : List Char) : Option (List PolicyClause) := do
  let (roles, cs) ← optionalClause? " TO " rolesClause? cs
  let (condition, cs) ← optionalClause? " USING (" (conditionClause? .condition) cs
  let (withCheck, cs) ← optionalClause? " WITH CHECK (" (conditionClause? .withCheck) cs
  ends? (roles ++ condition ++ withCheck) cs

/-- Every parenthesis and every quotation of a condition is closed, and no other one is. -/
def Balanced (condition : String) : Prop :=
  condition.toList.foldlM Place.next (0, none) = some (0, none)

/-- Whether a condition is balanced can be computed. -/
instance (condition : String) : Decidable (Balanced condition) :=
  inferInstanceAs (Decidable (_ = _))

/-- A condition is read up to the parenthesis that closes it. -/
theorem closed?_append {place next : Place} (h : cs.foldlM Place.next place = some next) :
    closed? place (cs ++ rest) = (closed? next rest).map (Prod.map (cs ++ ·) id) := by
  induction cs generalizing place with
  | nil =>
    obtain rfl := Option.some.inj h
    exact (congrFun Option.map_id _).symm
  | cons c cs ih =>
    rw [List.foldlM_cons] at h
    obtain ⟨behind, hbehind, h⟩ := Option.bind_eq_some_iff.1 h
    rw [List.cons_append, closed?, hbehind]
    dsimp only
    rw [ih h, Option.map_map, Prod.map_comp_map]
    rfl

/-- A balanced condition is read back. -/
theorem conditionClause?_of_balanced (make : String → PolicyClause) {condition : String}
    (h : Balanced condition) :
    conditionClause? make ((condition ++ ")").toList ++ rest) = some (make condition, rest) := by
  rw [conditionClause?, String.toList_append, List.append_assoc, closed?_append h]
  simp [closed?, Place.next]

/-- A list has a comma for every text but one. -/
theorem length_le_commaList (texts : List String) :
    texts.length ≤ (Text.commaList texts).toList.length + 1 := by
  unfold Text.commaList Text.join
  induction texts with
  | nil => simp
  | cons text texts ih =>
    cases texts with
    | nil => simp
    | cons next texts =>
      have hcomma : ", ".toList.length = 2 := rfl
      rw [String.intercalate_cons_cons, String.toList_append, String.toList_append,
        List.length_append, List.length_append, hcomma, List.length_cons]
      omega

/-- Behind a list stands no comma. -/
theorem behind?_comma (hrest : ∀ c ∈ rest.head?, c = ' ') : behind? ", " rest = none := by
  cases rest with
  | nil => rfl
  | cons c rest =>
    obtain rfl := hrest c rfl
    rfl

/-- Identifiers are read back from their list. -/
theorem readNames_quoteList {names : List String} (hne : names ≠ []) {count : Nat}
    (hcount : names.length ≤ count) (hrest : ∀ c ∈ rest.head?, c = ' ') :
    readNames count ((Dialect.postgres.quoteList names).toList ++ rest) = some (names, rest) := by
  unfold Dialect.quoteList Text.commaList Text.join
  induction names generalizing count with
  | nil => exact absurd rfl hne
  | cons name names ih =>
    obtain ⟨count, rfl⟩ : ∃ fewer, count = fewer + 1 := Nat.exists_eq_add_one.2 (by
      rw [List.length_cons] at hcount
      omega)
    have hread : ∀ {rest}, EndsWord rest → Dialect.postgres.readIdentifier
        ((Dialect.postgres.quote name).toList ++ rest) = some (name.toList, rest) :=
      readIdentifier_quote name
    cases names with
    | nil =>
      rw [List.map_singleton, String.intercalate_singleton, readNames,
        hread fun c hc => .inl (hrest c hc)]
      simp [behind?_comma hrest]
    | cons next names =>
      have hmore := ih (List.cons_ne_nil _ _) (Nat.le_of_succ_le_succ hcount)
      have hends : EndsWord (", ".toList ++
          ((", ".intercalate ((next :: names).map Dialect.postgres.quote)).toList ++ rest)) := by
        rintro c ⟨⟩
        exact .inr rfl
      rw [List.map_cons, List.map_cons, String.intercalate_cons_cons, ← List.map_cons,
        String.toList_append, String.toList_append, List.append_assoc, List.append_assoc, readNames,
        hread hends]
      simp only [Option.bind_some, behind?_append, hmore, Option.map_some, Prod.map_apply, id_eq,
        String.ofList_toList]

/-- An identifier is not written like the word for all roles. -/
theorem behind?_public (name : String) :
    behind? "PUBLIC" ((Dialect.postgres.quote name).toList ++ rest) = none := by
  have hhead : ∃ c cs, (Dialect.postgres.quote name).toList = c :: cs ∧ c ≠ 'P' := by
    rw [Dialect.quote, String.toList_ofList]
    rcases Dialect.postgres.quoteChars_eq name.toList with ⟨hbare, heq⟩ | heq
    · rw [heq]
      cases hname : name.toList with
      | nil => rw [hname] at hbare; cases hbare
      | cons c cs =>
        rw [hname, Dialect.isBare, Bool.and_eq_true] at hbare
        refine ⟨c, cs, rfl, ?_⟩
        rintro rfl
        exact absurd hbare.1 (by decide)
    · exact ⟨_, _, heq, by decide⟩
  obtain ⟨c, cs, hcs, hc⟩ := hhead
  rw [hcs]
  refine if_neg fun hprefix => hc ?_
  exact (List.cons_prefix_cons.1 (List.isPrefixOf_iff_prefix.1 hprefix)).1.symm

/-- The roles of a policy are read back. -/
theorem rolesClause?_append (roles : List String) (hrest : ∀ c ∈ rest.head?, c = ' ') :
    rolesClause? ((policyRoles roles).toList ++ rest) = some (.roles roles, rest) := by
  suffices h : readRoles ((policyRoles roles).toList ++ rest) = some (roles, rest) from
    congrArg (Option.map (Prod.map PolicyClause.roles id)) h
  cases roles with
  | nil =>
    have hpublic : policyRoles [] = "PUBLIC" := rfl
    rw [hpublic, readRoles, behind?_append]
  | cons name names =>
    have hlist : policyRoles (name :: names) = Dialect.postgres.quoteList (name :: names) := rfl
    have hnone : behind? "PUBLIC"
        ((Dialect.postgres.quoteList (name :: names)).toList ++ rest) = none := by
      unfold Dialect.quoteList Text.commaList Text.join
      cases names with
      | nil => exact behind?_public name
      | cons next names =>
        rw [List.map_cons, List.map_cons, String.intercalate_cons_cons, String.append_assoc,
          String.toList_append, List.append_assoc]
        exact behind?_public name
    rw [hlist, readRoles, hnone]
    refine readNames_quoteList (List.cons_ne_nil _ _) ?_ hrest
    have hlength := length_le_commaList ((name :: names).map Dialect.postgres.quote)
    rw [List.length_map] at hlength
    rw [List.length_append, Dialect.quoteList]
    omega

/-- The clauses of a policy, each with a blank in front. -/
def policyText (clauses : List PolicyClause) : List Char :=
  clauses.flatMap fun clause => ' ' :: clause.render.toList

/-- Clauses of a policy in the order in which they are written, each at most once. -/
def policyClauses (roles : Option (List String)) (condition withCheck : Option String) :
    List PolicyClause :=
  (roles.map .roles).toList ++ (condition.map .condition).toList ++
    (withCheck.map .withCheck).toList

/-- The words in front of a clause. -/
def PolicyClause.words : PolicyClause → String
  | roles _ => " TO "
  | condition _ => " USING ("
  | withCheck _ => " WITH CHECK ("

/-- A clause behind the words in front of it. -/
def PolicyClause.content : PolicyClause → List Char
  | roles names => (policyRoles names).toList
  | condition expression => (expression ++ ")").toList
  | withCheck expression => (expression ++ ")").toList

/-- A clause is its words and what stands behind them. -/
theorem PolicyClause.words_append_content (clause : PolicyClause) :
    ' ' :: clause.render.toList = clause.words.toList ++ clause.content := by
  cases clause <;>
    simp only [render, words, content, String.append_assoc, String.toList_append] <;> rfl

/-- A text that begins with a clause begins with no other one. -/
theorem behind?_policyText {clause : PolicyClause} {clauses : List PolicyClause}
    (h : Apart lead clause.words) : behind? lead (policyText (clause :: clauses)) = none := by
  rw [policyText, List.flatMap_cons, clause.words_append_content, List.append_assoc,
    behind?_of_apart h]

/-- A clause is read where it is there, and passed over where it is not. -/
theorem optionalClause?_append {α : Type} (make : α → PolicyClause) (found : Option α)
    {read : List Char → Option (PolicyClause × List Char)} (rest : List Char)
    (hread : ∀ a ∈ found, (make a).words = lead ∧
      read ((make a).content ++ rest) = some (make a, rest))
    (hnone : behind? lead rest = none) :
    optionalClause? lead read (policyText (found.map make).toList ++ rest) =
      some ((found.map make).toList, rest) := by
  cases found with
  | none =>
    have hempty : policyText (Option.map make none).toList ++ rest = rest := rfl
    rw [hempty, optionalClause?, hnone]
    rfl
  | some a =>
    obtain ⟨rfl, hfound⟩ := hread a rfl
    have hclause : policyText (Option.map make (some a)).toList =
        (make a).words.toList ++ (make a).content :=
      (List.append_nil _).trans (make a).words_append_content
    rw [hclause, List.append_assoc, optionalClause?, behind?_append]
    dsimp only
    rw [hfound]
    rfl

/-- Behind the roles of a policy stand no roles. -/
theorem behind?_to (condition withCheck : Option String) :
    behind? " TO " (policyText (policyClauses none condition withCheck)) = none := by
  have hcondition : Apart " TO " " USING (" := by decide
  have hcheck : Apart " TO " " WITH CHECK (" := by decide
  cases condition with
  | some => exact behind?_policyText hcondition
  | none =>
    cases withCheck with
    | some => exact behind?_policyText hcheck
    | none => rfl

/-- Behind the condition of a policy stands no other one. -/
theorem behind?_using (withCheck : Option String) :
    behind? " USING (" (policyText (policyClauses none none withCheck)) = none := by
  have hcheck : Apart " USING (" " WITH CHECK (" := by decide
  cases withCheck with
  | some => exact behind?_policyText hcheck
  | none => rfl

/-- Clauses have a blank in front. -/
theorem head?_policyText (clauses : List PolicyClause) :
    ∀ c ∈ (policyText clauses).head?, c = ' ' := by
  cases clauses with
  | nil => rintro c ⟨⟩
  | cons =>
    rintro c ⟨⟩
    rfl

/-- The texts of clauses follow one another. -/
theorem policyText_append (first others : List PolicyClause) :
    policyText (first ++ others) = policyText first ++ policyText others :=
  List.flatMap_append

/-- The clauses of a policy whose conditions are balanced are read back from their texts. -/
theorem readPolicyClauses_policyText (roles : Option (List String))
    {condition withCheck : Option String} (hcondition : ∀ text ∈ condition, Balanced text)
    (hcheck : ∀ text ∈ withCheck, Balanced text) :
    readPolicyClauses (policyText (policyClauses roles condition withCheck)) =
      some (policyClauses roles condition withCheck) := by
  have hroles := optionalClause?_append PolicyClause.roles roles
    (policyText (policyClauses none condition withCheck)) (fun names _ =>
      ⟨rfl, rolesClause?_append names (head?_policyText _)⟩) (behind?_to condition withCheck)
  have hconditions := optionalClause?_append PolicyClause.condition condition
    (policyText (policyClauses none none withCheck)) (fun text htext =>
      ⟨rfl, conditionClause?_of_balanced _ (hcondition text htext)⟩) (behind?_using withCheck)
  have hchecks := optionalClause?_append PolicyClause.withCheck withCheck [] (fun text htext =>
    ⟨rfl, conditionClause?_of_balanced _ (hcheck text htext)⟩) rfl
  rw [← policyText_append] at hroles hconditions
  rw [List.append_nil] at hchecks
  rw [readPolicyClauses, policyClauses, List.append_assoc]
  exact Option.bind_eq_some_iff.2 ⟨_, hroles, Option.bind_eq_some_iff.2 ⟨_, hconditions,
    Option.bind_eq_some_iff.2 ⟨_, hchecks, congrArg some (List.append_assoc _ _ _)⟩⟩⟩

end SchemaMigration.Ddl.Postgres
