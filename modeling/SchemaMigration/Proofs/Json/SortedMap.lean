import Mathlib.Data.List.Nodup
import Mathlib.Data.List.Perm.Basic
import Mathlib.Data.String.Basic
import SchemaMigration.Proofs.Json.RoundTrip

/-!
# Sorted maps

A map whose keys are sorted has one value for each key (`Codec.Sorted.lookup_eq_some_iff`) and is
known by its entries (`Codec.Sorted.eq_of_mem_iff`). Putting entries into it replaces those of the
same keys and leaves all others (`Codec.Sorted.mem_insertAll`).
-/

namespace SchemaMigration

/-- A value that is looked up stands in the map. -/
theorem mem_of_lookup {key value : String} {entries : List (String × String)}
    (h : entries.lookup key = some value) : (key, value) ∈ entries := by
  obtain ⟨before, after, rfl, -⟩ := List.lookup_eq_some_iff.1 h
  simp

namespace Codec

/-- Puts entries into a map, one after the other. -/
def insertAll (added entries : List (String × String)) : List (String × String) :=
  added.foldl (fun entries entry => insertEntry entry.1 entry.2 entries) entries

namespace Sorted

variable {entries others added : List (String × String)} {key value : String}

/-- The keys of a sorted map are distinct. -/
theorem nodup_keys (h : Sorted entries) : (entries.map Prod.fst).Nodup :=
  List.pairwise_map.2 (h.imp fun hlt => ne_of_lt hlt)

/-- A sorted map has one value for a key. -/
theorem lookup_eq_some_iff (h : Sorted entries) :
    entries.lookup key = some value ↔ (key, value) ∈ entries := by
  refine ⟨mem_of_lookup, fun hin => ?_⟩
  cases hfound : entries.lookup key with
  | none => simpa using List.lookup_eq_none_iff.1 hfound _ hin
  | some other =>
    have hsame := List.inj_on_of_nodup_map h.nodup_keys (mem_of_lookup hfound) hin rfl
    rw [(Prod.mk.inj hsame).2]

/-- Sorted maps with the same entries are the same. -/
theorem eq_of_mem_iff (h : Sorted entries) (hothers : Sorted others)
    (hmem : ∀ entry, entry ∈ entries ↔ entry ∈ others) : entries = others :=
  ((List.perm_ext_iff_of_nodup (.of_map _ h.nodup_keys) (.of_map _ hothers.nodup_keys)).2
    hmem).eq_of_pairwise (fun _ _ _ _ hab hba => absurd hba (lt_asymm hab)) h hothers

/-- An entry that is put into a map replaces that of the same key. -/
theorem mem_insertEntry {entry : String × String} : ∀ {entries : List (String × String)},
    Sorted entries → (entry ∈ insertEntry key value entries ↔
      entry = (key, value) ∨ entry ∈ entries ∧ entry.1 ≠ key)
  | [], _ => by simp [insertEntry]
  | (k, v) :: rest, h => by
    obtain ⟨hfirst, hrest⟩ := List.pairwise_cons.1 h
    unfold insertEntry
    split
    · next hlt =>
      have hbehind : entry ∈ (k, v) :: rest → entry.1 ≠ key := fun hin => by
        rcases List.mem_cons.1 hin with rfl | hin
        · exact (ne_of_lt hlt).symm
        · exact (ne_of_lt (lt_trans hlt (hfirst entry hin))).symm
      rw [List.mem_cons]
      exact or_congr_right (and_iff_left_of_imp hbehind).symm
    · split
      · next heq =>
        have hbehind : entry ∈ rest → entry.1 ≠ key := fun hin =>
          heq ▸ (ne_of_lt (hfirst entry hin)).symm
        rw [List.mem_cons, List.mem_cons]
        refine or_congr_right ⟨fun hin => ⟨.inr hin, hbehind hin⟩, fun hin => ?_⟩
        exact hin.1.resolve_left fun hsame => hin.2 (by rw [hsame, heq])
      · next hne =>
        rw [List.mem_cons, List.mem_cons, mem_insertEntry hrest]
        constructor
        · rintro (rfl | rfl | ⟨hin, hkey⟩)
          · exact .inr ⟨.inl rfl, Ne.symm hne⟩
          · exact .inl rfl
          · exact .inr ⟨.inr hin, hkey⟩
        · rintro (rfl | ⟨rfl | hin, hkey⟩)
          · exact .inr (.inl rfl)
          · exact .inl rfl
          · exact .inr (.inr ⟨hin, hkey⟩)

/-- A map stays sorted when an entry is put into it. -/
theorem sorted_insertEntry : ∀ {entries : List (String × String)}, Sorted entries →
    Sorted (insertEntry key value entries)
  | [], _ => List.pairwise_singleton _ _
  | (k, v) :: rest, h => by
    obtain ⟨hfirst, hrest⟩ := List.pairwise_cons.1 h
    unfold insertEntry
    split
    · next hlt =>
      refine List.pairwise_cons.2 ⟨fun entry hin => ?_, h⟩
      rcases List.mem_cons.1 hin with rfl | hin
      · exact hlt
      · exact lt_trans hlt (hfirst entry hin)
    · next hnot =>
      split
      · next heq => exact List.pairwise_cons.2 ⟨fun entry hin => heq ▸ hfirst entry hin, hrest⟩
      · next hne =>
        refine List.pairwise_cons.2 ⟨fun entry hin => ?_, sorted_insertEntry hrest⟩
        rcases (mem_insertEntry hrest).1 hin with rfl | ⟨hin, -⟩
        · exact lt_of_le_of_ne (not_lt.1 hnot) (Ne.symm hne)
        · exact hfirst entry hin

/-- A map stays sorted when entries are put into it. -/
theorem insertAll (added : List (String × String)) (h : Sorted entries) :
    Sorted (insertAll added entries) := by
  induction added generalizing entries with
  | nil => exact h
  | cons entry added ih => exact ih (sorted_insertEntry h)

/-- Entries of different keys that are put into a map replace those of the same keys. -/
theorem mem_insertAll {entry : String × String} (h : Sorted entries)
    (hadded : (added.map Prod.fst).Nodup) :
    entry ∈ Codec.insertAll added entries ↔
      entry ∈ added ∨ entry ∈ entries ∧ entry.1 ∉ added.map Prod.fst := by
  induction added generalizing entries with
  | nil => simp [Codec.insertAll]
  | cons first added ih =>
    obtain ⟨hfirst, hadded⟩ := List.nodup_cons.1 hadded
    change entry ∈ Codec.insertAll added (insertEntry first.1 first.2 entries) ↔ _
    rw [ih (sorted_insertEntry h) hadded, mem_insertEntry h, List.mem_cons, List.map_cons,
      List.mem_cons, not_or]
    constructor
    · rintro (hin | ⟨rfl | ⟨hin, hkey⟩, hnot⟩)
      · exact .inl (.inr hin)
      · exact .inl (.inl rfl)
      · exact .inr ⟨hin, hkey, hnot⟩
    · rintro ((rfl | hin) | ⟨hin, hkey, hnot⟩)
      · exact .inr ⟨.inl rfl, hfirst⟩
      · exact .inl hin
      · exact .inr ⟨.inr ⟨hin, hkey⟩, hnot⟩

end Sorted

end Codec

end SchemaMigration
