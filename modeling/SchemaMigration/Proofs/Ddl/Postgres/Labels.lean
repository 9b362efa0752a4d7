import Mathlib.Data.List.Nodup
import Mathlib.Data.List.Perm.Subperm
import SchemaMigration.Proofs.Ddl.Alteration
import SchemaMigration.Proofs.Dialect.Identifier

/-!
# Labels are added one after another

An addition puts a label in front of another one or at the end (`LabelAddition.addTo?`); it fails if
the label is there already, or if the one that it names is not. When a part of the new labels is
done, the enumeration has these and those of the rest that it had from the start, and the next label
comes in front of the first of the latter (`foldlM_addedLabels`). So the additions lead from the old
labels to the new ones, which takes nothing but that the old ones keep their order
(`enumeration_reached`).
-/

namespace SchemaMigration.Ddl.Postgres

/-! ## What an addition does -/

/-- The labels after an addition; nothing if the label is among them already, or if the one that it
is to stand in front of is not. -/
def LabelAddition.addTo? (addition : LabelAddition) (labels : List String) : Option (List String) :=
  if addition.label ∈ labels then none
  else
    match addition.before with
    | none => some (labels ++ [addition.label])
    | some next =>
      if next ∈ labels then
        some (labels.takeWhile (· ≠ next) ++ addition.label :: labels.dropWhile (· ≠ next))
      else none

/-- The statement that makes an addition. -/
def LabelAddition.statement (id : ObjectId) (addition : LabelAddition) : String :=
  "ALTER TYPE " ++ qualified id ++ " " ++ addition.render

/-- A label is added in front of the first of the labels behind it that are there. -/
theorem addTo?_head {label : String} {done kept : List String} (hlabel : label ∉ done ++ kept)
    (hnodup : (done ++ kept).Nodup) :
    (LabelAddition.mk label kept.head?).addTo? (done ++ kept) = some (done ++ label :: kept) := by
  unfold LabelAddition.addTo?
  rw [if_neg hlabel]
  cases kept with
  | nil => simp
  | cons next kept =>
    have hdone : ∀ other ∈ done, decide (other ≠ next) = true := fun other hother =>
      decide_eq_true ((List.nodup_append.1 hnodup).2.2 other hother next List.mem_cons_self)
    dsimp only [List.head?_cons]
    rw [if_pos (by simp), List.takeWhile_append_of_pos hdone, List.dropWhile_append_of_pos hdone,
      List.takeWhile_cons_of_neg (by simp), List.dropWhile_cons_of_neg (by simp), List.append_nil]

/-- With a part of the new labels done, the additions for the rest of them complete the labels. -/
theorem foldlM_addedLabels (old : List String) : ∀ done rest : List String,
    (done ++ rest).Nodup →
      (addedLabels old rest).foldlM (fun labels addition => addition.addTo? labels)
        (done ++ rest.filter old.contains) = some (done ++ rest)
  | done, [], _ => by simp [addedLabels]
  | done, label :: rest, hnodup => by
    have hrest := foldlM_addedLabels old (done ++ [label]) rest (by simpa using hnodup)
    rw [List.append_assoc, List.append_assoc, List.singleton_append, List.singleton_append] at hrest
    unfold addedLabels
    split
    · next hold => rwa [List.filter_cons_of_pos hold]
    · next hadded =>
      obtain ⟨hlabel, hothers⟩ := List.nodup_cons.1 (List.perm_middle.nodup_iff.1 hnodup)
      have hkept : (done ++ rest.filter old.contains).Sublist (done ++ rest) :=
        List.filter_sublist.append_left done
      rw [List.filter_cons_of_neg hadded, List.foldlM_cons, ← List.head?_filter,
        addTo?_head (fun hin => hlabel (hkept.subset hin)) (hothers.sublist hkept)]
      exact hrest

/-- The old labels are those of the new ones that are old, if they keep their order. -/
theorem filter_contains_of_sublist {old new : List String} (h : old.Sublist new)
    (hnew : new.Nodup) : new.filter old.contains = old := by
  have hsub : old.Sublist (new.filter old.contains) := by
    have := h.filter old.contains
    rwa [List.filter_eq_self.2 fun label hlabel => List.contains_iff_mem.2 hlabel] at this
  refine (hsub.eq_of_length_le ?_).symm
  exact ((hnew.filter _).subperm fun label hlabel =>
    List.contains_iff_mem.1 (List.mem_filter.1 hlabel).2).length_le

/-! ## What is written for them -/

/-- Additions that are written alike are the same. -/
theorem LabelAddition.statement_injective (id : ObjectId) :
    Function.Injective (LabelAddition.statement id) := by
  rintro ⟨label, before⟩ ⟨label', before'⟩ h
  simp only [statement, render, String.append_assoc, String.append_right_inj] at h
  have hoptional : ∀ before : Option String,
      '\'' ∉ (optional " BEFORE " (before.map literal)).toList.head? := by
    rintro (_ | next)
    · simp [optional]
    · simp [optional]
  obtain ⟨rfl, hbefore⟩ := literal_append_inj (hoptional _) (hoptional _) h
  have hsame : before = before' := by
    cases before <;> cases before' <;>
      simp only [optional, Option.map_some, Option.map_none] at hbefore
    case none.none => rfl
    case none.some => simp [String.ext_iff] at hbefore
    case some.none => simp [String.ext_iff] at hbefore
    case some.some => rw [literal_injective ((String.append_right_inj _).1 hbefore)]
  rw [hsame]

/-! ## From the old labels to the new ones -/

variable {old s : Statement} {before after : TypeDefinition}

/-- Two enumerations are brought to each other by the additions, if there are some. -/
theorem definitionChanges?_enumeration (hold : old.definition = .type before)
    (hnew : s.definition = .type after) (hbefore : before.variant = .enum)
    (hafter : after.variant = .enum) :
    definitionChanges? old.definition s =
      (labelAdditions? before.labels after.labels).map fun additions =>
        additions.map fun addition => { sql := addition.statement s.id } := by
  simp only [definitionChanges?, hold, hnew, hbefore, hafter, and_self, if_true]
  rfl

/-- An enumeration without repeated labels is created anew exactly if the old labels are not a
subsequence of the new ones. Otherwise the statements about it are those of certain additions and of
no others, and one after another these find the label that they name and lead from the old labels to
the new ones. -/
theorem enumeration_reached (old s : Statement) (hold : old.definition = .type before)
    (hnew : s.definition = .type after) (hbefore : before.variant = .enum)
    (hafter : after.variant = .enum) (hnodup : after.labels.Nodup) :
    (alter old s = .recreate ↔ ¬ before.labels.Sublist after.labels) ∧
    (before.labels.Sublist after.labels → ∃ additions : List LabelAddition,
      (∀ others : List LabelAddition,
        (Decision.ofAlteration (alter old s)).statements =
            others.map (LabelAddition.statement s.id) ++ remarkStatements old s ↔
          others = additions) ∧
      additions.foldlM (fun labels addition => addition.addTo? labels) before.labels =
        some after.labels) := by
  have hchanges := definitionChanges?_enumeration hold hnew hbefore hafter
  unfold labelAdditions? at hchanges
  refine ⟨?_, fun hsub => ⟨addedLabels before.labels after.labels, fun others => ?_, ?_⟩⟩
  · rw [alter_eq_recreate, hchanges, Option.map_eq_none_iff, ite_eq_right_iff,
      List.isSublist_iff_sublist]
    simp
  · rw [if_pos (List.isSublist_iff_sublist.2 hsub), Option.map_some] at hchanges
    rw [statements_alter hchanges, List.append_cancel_right_eq, List.map_map]
    exact ⟨fun h => ((LabelAddition.statement_injective s.id).list_map h).symm, fun h => h ▸ rfl⟩
  · have hrun := foldlM_addedLabels before.labels [] after.labels (by simpa using hnodup)
    rwa [List.nil_append, List.nil_append, filter_contains_of_sublist hsub hnodup] at hrun

/-- An enumeration of moods. -/
def mood (labels : List String) : Statement where
  id := ⟨.type, ["public", "mood"]⟩
  parent := some ⟨.schema, ["public"]⟩
  definition := .type { labels }

/-- Two labels are added in front of the same one and a third one at the end; labels that change
their order are not added. -/
theorem mood_reached :
    let labels := ["sad", "ok", "fine", "happy", "ecstatic"]
    labels.Nodup ∧ ["sad", "happy"].Sublist labels ∧
      (Decision.ofAlteration (alter (mood ["sad", "happy"]) (mood labels))).statements =
        ["ALTER TYPE public.mood ADD VALUE 'ok' BEFORE 'happy'",
          "ALTER TYPE public.mood ADD VALUE 'fine' BEFORE 'happy'",
          "ALTER TYPE public.mood ADD VALUE 'ecstatic'"] ∧
      [⟨"ok", some "happy"⟩, ⟨"fine", some "happy"⟩, ⟨"ecstatic", none⟩].foldlM
        (fun labels (addition : LabelAddition) => addition.addTo? labels) ["sad", "happy"] =
          some labels ∧
      alter (mood ["sad", "happy"]) (mood ["happy", "sad"]) = .recreate := by
  intro labels
  have hnodup : labels.Nodup := by decide
  have hsub : ["sad", "happy"].Sublist labels := by decide
  have hstatements : (Decision.ofAlteration (alter (mood ["sad", "happy"])
      (mood labels))).statements =
        ["ALTER TYPE public.mood ADD VALUE 'ok' BEFORE 'happy'",
          "ALTER TYPE public.mood ADD VALUE 'fine' BEFORE 'happy'",
          "ALTER TYPE public.mood ADD VALUE 'ecstatic'"] := by
    decide +kernel
  have hreordered := (enumeration_reached (mood ["sad", "happy"]) (mood ["happy", "sad"])
    rfl rfl rfl rfl (by decide)).1.2 (by decide)
  obtain ⟨additions, hunique, hrun⟩ := (enumeration_reached (mood ["sad", "happy"]) (mood labels)
    rfl rfl rfl rfl hnodup).2 hsub
  have hadditions := (hunique [⟨"ok", some "happy"⟩, ⟨"fine", some "happy"⟩,
    ⟨"ecstatic", none⟩]).1 (hstatements.trans (by decide +kernel))
  rw [← hadditions] at hrun
  exact ⟨hnodup, hsub, hstatements, hrun, hreordered⟩

end SchemaMigration.Ddl.Postgres
