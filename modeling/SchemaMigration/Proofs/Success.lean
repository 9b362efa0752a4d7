import Mathlib.Data.List.Forall2
import Mathlib.Data.List.ReduceOption

/-!
# Successful computations

What a computation that may fail has done if it succeeded: each of its parts has succeeded, and the
results of the parts are what the whole is made of.
-/

namespace SchemaMigration

section
variable {ε α β : Type}

/-- After a success, the next computation goes on with the result. -/
theorem ok_bind {a : α} {f : α → Except ε β} : (Except.ok a >>= f) = f a := rfl

/-- Two computations in a row succeed if both do. -/
theorem bind_eq_ok {x : Except ε α} {f : α → Except ε β} {b : β} :
    (x >>= f) = .ok b ↔ ∃ a, x = .ok a ∧ f a = .ok b := by
  cases x with
  | error => exact ⟨fun h => (by cases h), fun ⟨_, h, _⟩ => (by cases h)⟩
  | ok a => exact ⟨fun h => ⟨a, rfl, h⟩, fun ⟨_, h, hf⟩ => by cases h; exact hf⟩

/-- Two computations in a row succeed if the second one does with what the first one gives. -/
theorem exists_bind_eq_ok {x : Except ε α} {f : α → Except ε β} {a : α} (hx : x = .ok a)
    (hf : ∃ b, f a = .ok b) : ∃ b, (x >>= f) = .ok b :=
  hf.imp fun _ hb => bind_eq_ok.2 ⟨a, hx, hb⟩

/-- A computation whose result is changed succeeds if it does. -/
theorem map_eq_ok {x : Except ε α} {f : α → β} {b : β} :
    x.map f = .ok b ↔ ∃ a, x = .ok a ∧ f a = b := by
  cases x with
  | error => exact ⟨fun h => (by cases h), fun ⟨_, h, _⟩ => (by cases h)⟩
  | ok a => exact ⟨fun h => ⟨a, rfl, Except.ok.inj h⟩, fun ⟨_, h, hf⟩ => by cases h; rw [← hf]; rfl⟩

/-- A computation for each element of a list succeeds if all of them do. -/
theorem mapM_eq_ok {f : α → Except ε β} {l : List α} {bs : List β} :
    l.mapM f = .ok bs ↔ List.Forall₂ (fun a b => f a = .ok b) l bs := by
  induction l generalizing bs with
  | nil =>
    rw [List.mapM_nil, List.forall₂_nil_left_iff]
    exact ⟨fun h => (Except.ok.inj h).symm, fun h => h ▸ rfl⟩
  | cons a l ih =>
    simp only [List.mapM_cons, bind_eq_ok, ih, List.forall₂_cons_left_iff]
    constructor
    · rintro ⟨b, hb, bs, hbs, h⟩
      exact ⟨b, bs, hb, hbs, (Except.ok.inj h).symm⟩
    · rintro ⟨b, bs, hb, hbs, rfl⟩
      exact ⟨b, hb, bs, hbs, rfl⟩

/-- A computation for each element of a list succeeds if it does for each of them. -/
theorem exists_mapM_eq_ok {f : α → Except ε β} {l : List α} (h : ∀ a ∈ l, ∃ b, f a = .ok b) :
    ∃ bs, l.mapM f = .ok bs := by
  simp only [mapM_eq_ok]
  induction l with
  | nil => exact ⟨[], .nil⟩
  | cons a l ih =>
    obtain ⟨b, hb⟩ := h a List.mem_cons_self
    obtain ⟨bs, hbs⟩ := ih fun a ha => h a (List.mem_cons_of_mem _ ha)
    exact ⟨b :: bs, .cons hb hbs⟩

/-- What is related to one list has a partner there. -/
theorem exists_of_forall₂ {R : α → β → Prop} {l : List α} {bs : List β} (h : List.Forall₂ R l bs) :
    (∀ a ∈ l, ∃ b ∈ bs, R a b) ∧ ∀ b ∈ bs, ∃ a ∈ l, R a b := by
  induction h with
  | nil => simp
  | @cons a b l bs hab _ ih =>
    constructor
    · rintro a' (_ | ⟨_, ha'⟩)
      · exact ⟨b, List.mem_cons_self, hab⟩
      · obtain ⟨b', hb', hab'⟩ := ih.1 a' ha'
        exact ⟨b', List.mem_cons_of_mem _ hb', hab'⟩
    · rintro b' (_ | ⟨_, hb'⟩)
      · exact ⟨a, List.mem_cons_self, hab⟩
      · obtain ⟨a', ha', hab'⟩ := ih.2 b' hb'
        exact ⟨a', List.mem_cons_of_mem _ ha', hab'⟩

/-- A computation for each element of a list that keeps some of the results succeeds if all of them
do. -/
theorem filterMapM_eq_ok {f : α → Except ε (Option β)} {l : List α} {bs : List β} :
    l.filterMapM f = .ok bs ↔
      ∃ os, List.Forall₂ (fun a o => f a = .ok o) l os ∧ os.reduceOption = bs := by
  induction l generalizing bs with
  | nil =>
    rw [List.filterMapM_nil]
    simp only [List.forall₂_nil_left_iff, exists_eq_left, List.reduceOption_nil]
    exact ⟨fun h => Except.ok.inj h, fun h => h ▸ rfl⟩
  | cons a l ih =>
    simp only [List.filterMapM_cons, bind_eq_ok, List.forall₂_cons_left_iff]
    constructor
    · rintro ⟨o, ho, h⟩
      cases o with
      | none =>
        obtain ⟨os, hos, rfl⟩ := ih.1 h
        exact ⟨none :: os, ⟨none, os, ho, hos, rfl⟩, List.reduceOption_cons_of_none os⟩
      | some b =>
        obtain ⟨rest, hrest, h⟩ := bind_eq_ok.1 h
        obtain ⟨os, hos, rfl⟩ := ih.1 hrest
        obtain rfl := Except.ok.inj h
        exact ⟨some b :: os, ⟨some b, os, ho, hos, rfl⟩, List.reduceOption_cons_of_some b os⟩
    · rintro ⟨_, ⟨o, os, ho, hos, rfl⟩, rfl⟩
      have hrest := ih.2 ⟨os, hos, rfl⟩
      refine ⟨o, ho, ?_⟩
      cases o with
      | none => rw [List.reduceOption_cons_of_none]; exact hrest
      | some b => rw [List.reduceOption_cons_of_some]; exact bind_eq_ok.2 ⟨_, hrest, rfl⟩

/-- A computation for each element of a list that keeps some of the results succeeds if it does for
each of them. -/
theorem exists_filterMapM_eq_ok {f : α → Except ε (Option β)} {l : List α}
    (h : ∀ a ∈ l, ∃ o, f a = .ok o) : ∃ bs, l.filterMapM f = .ok bs := by
  obtain ⟨os, hos⟩ := exists_mapM_eq_ok h
  exact ⟨_, filterMapM_eq_ok.2 ⟨os, mapM_eq_ok.1 hos, rfl⟩⟩

/-- A computation that never fails keeps what its function keeps. -/
theorem filterMapM_ok {f : α → Option β} (l : List α) :
    l.filterMapM (fun a => (.ok (f a) : Except ε (Option β))) = .ok (l.filterMap f) := by
  induction l with
  | nil => rfl
  | cons a l ih =>
    rw [List.filterMapM_cons, ih]
    cases hf : f a <;> simp only [List.filterMap_cons, hf] <;> rfl

/-- What every step of a fold that may fail preserves, of what is left and what is there so far,
holds in the end. -/
theorem foldlM_preserves_rest {f : β → α → Except ε β} (p : List α → β → Prop) {l : List α}
    {b result : β} (h : l.foldlM f b = .ok result) (hp : p l b)
    (hstep : ∀ a rest b next, p (a :: rest) b → f b a = .ok next → p rest next) : p [] result := by
  induction l generalizing b with
  | nil =>
    rw [List.foldlM_nil] at h
    exact Except.ok.inj h ▸ hp
  | cons a l ih =>
    rw [List.foldlM_cons, bind_eq_ok] at h
    obtain ⟨next, hnext, h⟩ := h
    exact ih h (hstep a l b next hp hnext)

/-- What every step of a fold that may fail preserves holds in the end. -/
theorem foldlM_preserves {f : β → α → Except ε β} (p : β → Prop) {l : List α} {b result : β}
    (h : l.foldlM f b = .ok result) (hp : p b)
    (hstep : ∀ a ∈ l, ∀ b next, p b → f b a = .ok next → p next) : p result := by
  refine (foldlM_preserves_rest (fun rest b => rest ⊆ l ∧ p b) h ⟨List.Subset.refl l, hp⟩ ?_).2
  rintro a rest b next ⟨hsub, hp⟩ hnext
  exact ⟨fun _ hmem => hsub (List.mem_cons_of_mem a hmem),
    hstep a (hsub List.mem_cons_self) b next hp hnext⟩

/-- A fold that fails fails at one of the elements, with what every step preserves so far. -/
theorem exists_of_foldlM_eq_error_of_preserved {f : β → α → Except ε β} (p : β → Prop) {l : List α}
    {b : β} {e : ε} (h : l.foldlM f b = .error e) (hp : p b)
    (hstep : ∀ a ∈ l, ∀ b next, p b → f b a = .ok next → p next) :
    ∃ a ∈ l, ∃ sofar, p sofar ∧ f sofar a = .error e := by
  induction l generalizing b with
  | nil => cases h
  | cons a l ih =>
    rw [List.foldlM_cons] at h
    cases hnext : f b a with
    | error fault =>
      rw [hnext] at h
      obtain rfl := Except.error.inj h
      exact ⟨a, List.mem_cons_self, b, hp, hnext⟩
    | ok next =>
      rw [hnext] at h
      obtain ⟨a', ha', hfault⟩ := ih h (hstep a List.mem_cons_self b next hp hnext)
        fun a ha => hstep a (List.mem_cons_of_mem _ ha)
      exact ⟨a', List.mem_cons_of_mem _ ha', hfault⟩

/-- A fold that fails fails at one of the elements. -/
theorem exists_of_foldlM_eq_error {f : β → α → Except ε β} {l : List α} {b : β} {e : ε}
    (h : l.foldlM f b = .error e) : ∃ a ∈ l, ∃ sofar, f sofar a = .error e := by
  obtain ⟨a, ha, sofar, -, hfault⟩ := exists_of_foldlM_eq_error_of_preserved (fun _ => True) h
    trivial fun _ _ _ _ _ _ => trivial
  exact ⟨a, ha, sofar, hfault⟩

/-- What a test of the result says holds of a result that is there. -/
theorem exists_ok_of_test {x : Except ε α} {p : α → Bool} (h : x.toOption.any p = true) :
    ∃ a, x = .ok a ∧ p a = true := by
  cases x with
  | error => cases h
  | ok a => exact ⟨a, rfl, h⟩

end

end SchemaMigration
