import Mathlib.Tactic.ByContra
import Mathlib.Data.List.Perm.Basic
import SchemaMigration.Snapshot.NameLookup

/-!
# What a name stands for

A name is looked up among identities in the order in which they were added. The unique match
anywhere does not depend on that order, but the match in a schema does: the first identity of the
first kind that has one is taken, though there may be others of the same kind with the same name.
`NameLookup.resolve?_perm_iff` says that this is the only way in which the order matters.
-/

namespace SchemaMigration.NameLookup

variable {ids found : List ObjectId} {kinds : List ObjectKind} {near : Option String}
  {parts : List String} {id : ObjectId} {name schema : String}

/-! ## Candidates -/

theorem mem_candidates_iff : id ∈ candidates ids kinds name ↔
    id ∈ ids ∧ id.kind ∈ kinds ∧ Text.sameIgnoringCase id.bareName name = true := by
  simp only [candidates, List.mem_flatMap, List.mem_filter, Bool.and_eq_true, decide_eq_true_eq]
  constructor
  · rintro ⟨kind, hkind, hid, rfl, hname⟩
    exact ⟨hid, hkind, hname⟩
  · rintro ⟨hid, hkind, hname⟩
    exact ⟨_, hkind, hid, rfl, hname⟩

theorem only?_eq_some : only? found = some id ↔ found = [id] := by
  unfold only?
  split <;> simp_all

/-- The schema in which a name is looked up first, by the parts in front of it. -/
def home? (near : Option String) (outer : List String) : Option String :=
  (outer.head?.map unquoted) <|> near

/-- A name is looked up in a schema first, and then, if it names none itself, everywhere. -/
theorem resolve?_eq {outer : List String} (hparts : parts.reverse = name :: outer) :
    resolve? ids kinds near parts =
      ((home? near outer).bind (inSchema? (candidates ids kinds (unquoted name)))).or
        (if outer = [] then only? (candidates ids kinds (unquoted name)) else none) := by
  rw [resolve?, hparts]
  cases outer <;> cases near <;> simp [home?]

/-- What a name stands for is one of the identities of the kinds it is looked up among. -/
theorem mem_candidates_of_resolve? (h : resolve? ids kinds near parts = some id) :
    ∃ name ∈ parts, id ∈ candidates ids kinds (unquoted name) := by
  cases hparts : parts.reverse with
  | nil => simp [resolve?, hparts] at h
  | cons name outer =>
    have hname : name ∈ parts := List.mem_reverse.1 (by simp [hparts])
    refine ⟨name, hname, ?_⟩
    rw [resolve?_eq hparts] at h
    rcases Option.or_eq_some_iff.1 h with h | ⟨-, h⟩
    · obtain ⟨schema, -, h⟩ := Option.bind_eq_some_iff.1 h
      exact List.mem_of_find?_eq_some h
    · split at h
      · rw [only?_eq_some.1 h]
        exact List.mem_singleton_self id
      · cases h

theorem mem_of_resolve? (h : resolve? ids kinds near parts = some id) : id ∈ ids := by
  obtain ⟨_, -, h⟩ := mem_candidates_of_resolve? h
  exact (mem_candidates_iff.1 h).1

theorem kind_mem_of_resolve? (h : resolve? ids kinds near parts = some id) : id.kind ∈ kinds := by
  obtain ⟨_, -, h⟩ := mem_candidates_of_resolve? h
  exact (mem_candidates_iff.1 h).2.1

/-! ## The order of the identities -/

/-- An identity is of a kind and in a schema and has a name. -/
def Fits (kind : ObjectKind) (name schema : String) (id : ObjectId) : Prop :=
  id.kind = kind ∧ Text.sameIgnoringCase id.bareName name = true ∧
    ∃ place ∈ id.schemaName?, Text.sameIgnoringCase place schema = true

instance (kind : ObjectKind) (name schema : String) : DecidablePred (Fits kind name schema) :=
  fun id => inferInstanceAs (Decidable (_ ∧ _ ∧ ∃ place ∈ id.schemaName?, _))

/-- The first kind that has an identity in a schema under a name has two of them. -/
def Contested (ids : List ObjectId) (kinds : List ObjectKind) (name schema : String) : Prop :=
  ∃ before kind after, kinds = before ++ kind :: after ∧
    (∀ earlier ∈ before, ∀ id ∈ ids, ¬Fits earlier name schema id) ∧
    ∃ a ∈ ids, ∃ b ∈ ids, a ≠ b ∧ Fits kind name schema a ∧ Fits kind name schema b

/-- A name of at most one identity of each kind in a schema is not contested there. -/
theorem not_contested_of_unique (h : ∀ kind ∈ kinds, ∀ a ∈ ids, ∀ b ∈ ids,
    Fits kind name schema a → Fits kind name schema b → a = b) :
    ¬Contested ids kinds name schema := by
  rintro ⟨before, kind, after, rfl, -, a, ha, b, hb, hne, hfitsa, hfitsb⟩
  exact hne (h kind (by simp) a ha b hb hfitsa hfitsb)

/-- In a schema the kinds are gone through one by one. -/
theorem inSchema?_candidates : inSchema? (candidates ids kinds name) schema =
    kinds.findSome? fun kind => ids.find? (Fits kind name schema ·) := by
  rw [inSchema?, candidates, List.find?_flatMap]
  congr 1
  funext kind
  rw [List.find?_filter]
  congr 1
  funext id
  cases hplace : id.schemaName? <;> simp [Fits, hplace, and_assoc]

variable {others : List ObjectId}

/-- The only match is found in every order. -/
theorem find?_eq_of_perm {p : ObjectId → Bool} (hperm : others.Perm ids)
    (honly : ∀ a ∈ ids, ∀ b ∈ ids, p a = true → p b = true → a = b) :
    others.find? p = ids.find? p := by
  cases hids : ids.find? p with
  | none =>
    refine List.find?_eq_none.2 fun id hid => ?_
    exact List.find?_eq_none.1 hids id (hperm.mem_iff.1 hid)
  | some a =>
    have ha : a ∈ ids := List.mem_of_find?_eq_some hids
    cases hothers : others.find? p with
    | none =>
      exact absurd (List.find?_some hids) (List.find?_eq_none.1 hothers a (hperm.mem_iff.2 ha))
    | some b =>
      have hb : b ∈ ids := hperm.mem_iff.1 (List.mem_of_find?_eq_some hothers)
      rw [honly a ha b hb (List.find?_some hids) (List.find?_some hothers)]

/-- The match in a schema is the same in every order, unless it is contested. -/
theorem inSchema?_eq_of_perm (hperm : others.Perm ids) : ∀ {kinds : List ObjectKind},
    ¬Contested ids kinds name schema → inSchema? (candidates others kinds name) schema =
      inSchema? (candidates ids kinds name) schema
  | [], _ => rfl
  | kind :: kinds, hfree => by
    have hfirst : others.find? (Fits kind name schema ·) = ids.find? (Fits kind name schema ·) := by
      refine find?_eq_of_perm hperm fun a ha b hb hfitsa hfitsb => ?_
      by_contra hne
      exact hfree ⟨[], kind, kinds, rfl, by simp, a, ha, b, hb, hne, of_decide_eq_true hfitsa,
        of_decide_eq_true hfitsb⟩
    have hrest : ids.find? (Fits kind name schema ·) = none → ¬Contested ids kinds name schema := by
      rintro hnone ⟨before, other, after, rfl, hbefore, htwo⟩
      refine hfree ⟨kind :: before, other, after, rfl, fun earlier hearlier id hid => ?_, htwo⟩
      obtain rfl | hearlier := List.mem_cons.1 hearlier
      · simpa using List.find?_eq_none.1 hnone id hid
      · exact hbefore earlier hearlier id hid
    have ih := fun h => inSchema?_eq_of_perm hperm (hrest h)
    simp only [inSchema?_candidates, List.findSome?_cons, hfirst] at ih ⊢
    cases hids : ids.find? (Fits kind name schema ·) with
    | none => exact ih hids
    | some a => rfl

/-- A contested match in a schema is another one in another order. -/
theorem exists_perm_of_contested (h : Contested ids kinds name schema) :
    ∃ others : List ObjectId, others.Perm ids ∧ ∃ x y, x ≠ y ∧
      inSchema? (candidates ids kinds name) schema = some x ∧
      inSchema? (candidates others kinds name) schema = some y := by
  obtain ⟨before, kind, after, rfl, hbefore, a, ha, b, hb, hne, hfitsa, hfitsb⟩ := h
  -- Nothing is found among the earlier kinds, whatever the order.
  have hskip {others : List ObjectId} {x : ObjectId} (hperm : others.Perm ids)
      (hx : others.find? (Fits kind name schema ·) = some x) :
      inSchema? (candidates others (before ++ kind :: after) name) schema = some x := by
    have hnone : (before.findSome? fun kind => others.find? (Fits kind name schema ·)) = none := by
      refine List.findSome?_eq_none_iff.2 fun earlier hearlier => List.find?_eq_none.2 ?_
      exact fun id hid => by simpa using hbefore earlier hearlier id (hperm.mem_iff.1 hid)
    rw [inSchema?_candidates, List.findSome?_append, hnone, Option.none_or, List.findSome?_cons, hx]
  obtain ⟨x, hx⟩ : ∃ x, ids.find? (Fits kind name schema ·) = some x :=
    Option.isSome_iff_exists.1 (List.find?_isSome.2 ⟨a, ha, decide_eq_true hfitsa⟩)
  obtain ⟨y, hy, hfitsy, hxy⟩ : ∃ y ∈ ids, Fits kind name schema y ∧ x ≠ y := by
    by_cases hxa : x = a
    · exact ⟨b, hb, hfitsb, hxa ▸ hne⟩
    · exact ⟨a, ha, hfitsa, hxa⟩
  have hperm : (y :: ids.erase y).Perm ids := (List.perm_cons_erase hy).symm
  exact ⟨_, hperm, x, y, hxy, hskip (.refl _) hx,
    hskip hperm (List.find?_cons_of_pos (decide_eq_true hfitsy))⟩

/-- The only match anywhere is the same in every order. -/
theorem only?_eq_of_perm (hperm : others.Perm ids) :
    only? (candidates others kinds name) = only? (candidates ids kinds name) := by
  have hfound : (candidates others kinds name).Perm (candidates ids kinds name) :=
    List.Perm.flatMap_left _ fun kind _ => hperm.filter _
  refine Option.ext fun id => ?_
  rw [only?_eq_some, only?_eq_some]
  constructor
  · intro h
    rw [h] at hfound
    exact List.perm_singleton.1 hfound.symm
  · intro h
    rw [h] at hfound
    exact List.perm_singleton.1 hfound

/-- A name is looked up in a schema in which it is contested. -/
def Ambiguous (ids : List ObjectId) (kinds : List ObjectKind) (near : Option String)
    (parts : List String) : Prop :=
  ∃ name outer schema, parts.reverse = name :: outer ∧ home? near outer = some schema ∧
    Contested ids kinds (unquoted name) schema

/-- What a name stands for is the same in every order, unless it is ambiguous. -/
theorem resolve?_eq_of_perm (hperm : others.Perm ids) (hclear : ¬Ambiguous ids kinds near parts) :
    resolve? others kinds near parts = resolve? ids kinds near parts := by
  cases hparts : parts.reverse with
  | nil => simp [resolve?, hparts]
  | cons name outer =>
    rw [resolve?_eq hparts, resolve?_eq hparts, only?_eq_of_perm hperm]
    cases hhome : home? near outer with
    | none => rfl
    | some schema =>
      rw [Option.bind_some, Option.bind_some, inSchema?_eq_of_perm hperm]
      exact fun hcontested => hclear ⟨name, outer, schema, hparts, hhome, hcontested⟩

/-- What a name stands for is the same in every order of the identities if and only if it is not
ambiguous. -/
theorem resolve?_perm_iff :
    (∀ others : List ObjectId, others.Perm ids →
      resolve? others kinds near parts = resolve? ids kinds near parts) ↔
      ¬Ambiguous ids kinds near parts := by
  refine ⟨?_, fun hclear others hperm => resolve?_eq_of_perm hperm hclear⟩
  rintro hsame ⟨name, outer, schema, hparts, hhome, hcontested⟩
  obtain ⟨others, hperm, x, y, hne, hx, hy⟩ := exists_perm_of_contested hcontested
  have hsame := hsame others hperm
  rw [resolve?_eq hparts, resolve?_eq hparts, hhome, Option.bind_some, Option.bind_some, hx, hy]
    at hsame
  exact hne (Option.some.inj hsame).symm

end SchemaMigration.NameLookup
