import SchemaMigration.Proofs.Json.Codec
import SchemaMigration.Proofs.Json.Reader
import SchemaMigration.Proofs.Success

/-!
# Codecs read what they write

A value is read back from the document that is written for it (`Codec.Restores`), whether that is
read from a text or from an object read before. A list, an optional value and a record have this
from their parts, like the room that their brackets take (`Codec.Fits`), so that both are found for
a codec along the way in which it is put together. A map is read back if its keys are sorted. With
the reader of texts this makes the text of a value as good as the value
(`Codec.Restores.ofText_print`).
-/

namespace SchemaMigration

variable {α σ : Type}

/-- A value is read back from what is written for it. -/
def Codec.Restores (codec : Codec α) (a : α) : Prop :=
  ∀ mode, codec.read mode (codec.write a) = .ok a

/-- Every value is read back. -/
class Codec.Exact (codec : Codec α) : Prop where
  restores : ∀ a, codec.Restores a

/-- Documents that are written fit, with their brackets nested at most so deep. -/
class Codec.Fits (codec : Codec α) (levels : Nat) : Prop where
  fits : ∀ a, (codec.write a).Fits levels

/-- The fields of a record have different names, and what is written for them makes it up. -/
structure Layout.Restores (layout : Layout σ) (r : σ) : Prop where
  distinct : (layout.fields.map (·.name)).Nodup
  copy : ∀ mode, layout.fields.foldlM (fun copy field => field.read mode (field.write r) copy)
    layout.blank = .ok r

/-- Every record is made up of what is written for its fields. -/
class Layout.Exact (layout : Layout σ) : Prop where
  restores : ∀ r, layout.Restores r

/-- What is written for fields fits, with brackets nested at most so deep. -/
class Layout.Fits (layout : Layout σ) (levels : Nat) : Prop where
  fits : ∀ field ∈ layout.fields, ∀ r, (field.write r).Fits levels

section
variable {codec : Codec α} {a : α} (h : codec.Restores a) (name : String) (get : σ → α)
  (set : α → σ → σ) (mode : Mode) (copy : σ)
include h

/-- A field copies what its codec restores. -/
@[simp]
theorem Codec.Restores.read_needed :
    (Field.needed name codec get set).read mode (codec.write a) copy = .ok (set a copy) := by
  change (codec.read mode (codec.write a)).map (set · copy) = _
  rw [h mode]
  rfl

/-- So does a field that may be absent. -/
@[simp]
theorem Codec.Restores.read_defaulted :
    (Field.defaulted name codec get set).read mode (codec.write a) copy = .ok (set a copy) :=
  h.read_needed name get set mode copy

end

/-! ## Records -/

namespace Layout

variable {layout : Layout σ} {r : σ}

/-- A field is found by its name. -/
theorem find?_name {fields : List (Field σ)} (h : (fields.map (·.name)).Nodup) {field : Field σ}
    (hfield : field ∈ fields) : fields.find? (·.name == field.name) = some field := by
  induction fields with
  | nil => cases hfield
  | cons first fields ih =>
    obtain ⟨hnot, hrest⟩ := List.nodup_cons.1 h
    rcases List.mem_cons.1 hfield with rfl | hfield
    · simp
    · rw [List.find?_cons_of_neg, ih hrest hfield]
      intro heq
      exact hnot (List.mem_map.2 ⟨field, hfield, (beq_iff_eq.1 heq).symm⟩)

/-- The written fields are read one after the other. -/
theorem readMembers_map (hlayout : (layout.fields.map (·.name)).Nodup) {mode : Mode}
    {fields : List (Field σ)} (hsub : fields ⊆ layout.fields) {seen : List String}
    (hdistinct : (fields.map (·.name) ++ seen).Nodup) {copy result : σ}
    (h : fields.foldlM (fun copy field => field.read mode (field.write r) copy) copy =
      .ok result) :
    layout.readMembers mode seen copy (fields.map fun field => (field.name, field.write r)) =
      .ok ((fields.map (·.name)).reverse ++ seen, result) := by
  induction fields generalizing seen copy with
  | nil =>
    obtain rfl := Except.ok.inj h
    rfl
  | cons field fields ih =>
    rw [List.foldlM_cons] at h
    obtain ⟨next, hnext, h⟩ := bind_eq_ok.1 h
    obtain ⟨hnot, hrest⟩ := List.nodup_cons.1 hdistinct
    have hseen : seen.contains field.name = false := by
      rw [← Bool.not_eq_true, List.contains_iff_mem]
      exact fun hin => hnot (List.mem_append_right _ hin)
    rw [List.map_cons, readMembers, find?_name hlayout (hsub List.mem_cons_self)]
    dsimp only
    rw [hseen, hnext]
    have hmiddle : (fields.map (·.name) ++ field.name :: seen).Nodup :=
      (List.perm_middle.nodup_iff).2 hdistinct
    have hread := ih (fun field hfield => hsub (List.mem_cons_of_mem _ hfield)) hmiddle h
    simp only [Bool.false_eq_true, if_false, ok_bind, hread, List.map_cons, List.reverse_cons,
      List.append_assoc, List.singleton_append]

/-- A record is read back from its members. -/
theorem Restores.ofMembers (h : layout.Restores r) (mode : Mode) :
    layout.ofMembers mode (layout.members r) true = .ok r := by
  have hnodup : (layout.fields.map Field.name ++ []).Nodup := by simpa using h.distinct
  have hread := readMembers_map h.distinct (List.Subset.refl _) hnodup (h.copy mode)
  have hmissing : layout.missing? ((layout.fields.map (·.name)).reverse ++ []) = none := by
    simp only [missing?, Option.map_eq_none_iff, List.find?_eq_none]
    intro field hfield
    have hin : field.name ∈ layout.fields.map (·.name) := List.mem_map_of_mem hfield
    simp [hin]
  unfold Layout.ofMembers
  rw [members, hread, ok_bind]
  dsimp only
  rw [hmissing]

/-- A record is read back. -/
theorem Restores.restores (h : layout.Restores r) : layout.codec.Restores r :=
  h.ofMembers

/-- The members of a record fit. -/
theorem fits_of_mem_members {levels : Nat} [layout.Fits levels] {member : String × Json}
    (h : member ∈ layout.members r) : member.2.Fits levels := by
  obtain ⟨field, hfield, rfl⟩ := List.mem_map.1 h
  exact Fits.fits field hfield r

end Layout

/-! ## Codecs -/

namespace Codec

@[simp]
theorem fits_write {codec : Codec α} {levels : Nat} [codec.Fits levels] (a : α) :
    (codec.write a).Fits levels :=
  Fits.fits a

@[simp]
theorem restores_of_exact {codec : Codec α} [codec.Exact] (a : α) : codec.Restores a :=
  Exact.restores a

instance : string.Exact := ⟨fun _ _ => rfl⟩

instance {levels : Nat} : string.Fits levels := ⟨.string levels⟩

instance : bool.Exact := ⟨fun _ _ => rfl⟩

instance {levels : Nat} : bool.Fits levels := ⟨.bool levels⟩

/-- An integer within the bounds is read. -/
theorem bounded_integer {low high : Int} {wanted : String} {mode : Mode} {value : Int}
    (hlow : low ≤ value) (hhigh : value ≤ high) :
    bounded low high wanted mode (.integer value) = .ok value :=
  if_pos (by simp [hlow, hhigh])

instance : int64.Exact where
  restores a mode := by
    change (bounded (-2 ^ 63) (2 ^ 63 - 1) "i64" mode (.integer a.toInt)).map Int64.ofInt = _
    rw [bounded_integer a.le_toInt (Int.le_sub_one_of_lt a.toInt_lt)]
    exact congrArg Except.ok (Int64.ofInt_toInt a)

instance {levels : Nat} : int64.Fits levels :=
  ⟨fun a => .integer levels (by
    have hlow := a.le_toInt
    have hhigh := a.toInt_lt
    have hlimit : Numeral.wordLimit = 2 ^ 64 - 1 := by decide
    omega)⟩

instance : uint32.Exact where
  restores a mode := by
    have hhigh : (a.toNat : Int) ≤ 2 ^ 32 - 1 := Int.le_sub_one_of_lt (Int.ofNat_lt.2 a.toNat_lt)
    change (bounded 0 (2 ^ 32 - 1) "u32" mode (.integer a.toNat)).map
      (fun value => UInt32.ofNat value.toNat) = _
    rw [bounded_integer (Int.natCast_nonneg a.toNat) hhigh]
    exact congrArg Except.ok (UInt32.ofNat_toNat)

instance {levels : Nat} : uint32.Fits levels :=
  ⟨fun a => .integer levels (by
    have hlimit : Numeral.wordLimit = 2 ^ 64 - 1 := by decide
    have := a.toNat_lt
    omega)⟩

/-- A text that may be absent, or another value that is not written as `null`. -/
theorem Restores.option {codec : Codec α} [codec.Definite] {a? : Option α}
    (h : ∀ a ∈ a?, codec.Restores a) : (option codec).Restores a? := by
  intro mode
  cases a? with
  | none => rfl
  | some a =>
    have hnull : codec.write a ≠ .null := Definite.ne_null a
    change (Codec.option codec).read mode (codec.write a) = _
    have hread := h a rfl mode
    generalize codec.write a = document at hnull hread
    cases document with
    | null => exact absurd rfl hnull
    | _ => exact map_eq_ok.2 ⟨a, hread, rfl⟩

instance {codec : Codec α} [codec.Exact] [codec.Definite] : (option codec).Exact :=
  ⟨fun _ => .option fun a _ => Exact.restores a⟩

instance {codec : Codec α} {levels : Nat} [codec.Fits levels] : (option codec).Fits levels where
  fits a? := by
    cases a? with
    | none => exact .null levels
    | some a => exact fits_write a

/-- Lists are read back item by item. -/
instance {codec : Codec α} [codec.Exact] : (list codec).Exact where
  restores values mode := by
    have hitems : readItems codec mode (values.map codec.write) = .ok values := by
      induction values with
      | nil => rfl
      | cons value values ih =>
        rw [List.map_cons, readItems, Exact.restores value mode, ok_bind, ih, ok_bind]
        rfl
    change (readItems codec mode (values.map codec.write) >>= whole true) = _
    rw [hitems]
    rfl

instance {codec : Codec α} {levels : Nat} [codec.Fits levels] : (list codec).Fits (levels + 1) where
  fits values := .list fun item hitem => by
    obtain ⟨value, -, rfl⟩ := List.mem_map.1 hitem
    exact fits_write value

/-- The keys of a map are sorted. -/
def Sorted (entries : List (String × String)) : Prop := entries.Pairwise fun a b => a.1 < b.1

instance (entries : List (String × String)) : Decidable (Sorted entries) :=
  inferInstanceAs (Decidable (entries.Pairwise fun a b => a.1 < b.1))

/-- An entry whose key comes after all others is put at the end. -/
theorem insertEntry_of_lt {key value : String} :
    ∀ {entries : List (String × String)}, (∀ entry ∈ entries, entry.1 < key) →
      insertEntry key value entries = entries ++ [(key, value)]
  | [], _ => rfl
  | (k, v) :: rest, h => by
    have hlt : k < key := h _ List.mem_cons_self
    rw [insertEntry, if_neg (String.lt_asymm hlt), if_neg (String.ne_of_lt hlt).symm,
      insertEntry_of_lt fun entry hentry => h entry (List.mem_cons_of_mem _ hentry)]
    rfl

/-- A map is read back if its keys are sorted. -/
theorem restores_sortedMap {entries : List (String × String)} (h : Sorted entries) :
    sortedMap.Restores entries := by
  intro mode
  have hread : ∀ before after : List (String × String), Sorted (before ++ after) →
      readEntries mode before (after.map fun entry => (entry.1, Json.string entry.2)) =
        .ok (before ++ after) := by
    intro before after hsorted
    induction after generalizing before with
    | nil => rw [List.append_nil]; rfl
    | cons entry after ih =>
      obtain ⟨key, value⟩ := entry
      have hlt : ∀ entry ∈ before, entry.1 < key := fun entry hentry =>
        (List.pairwise_append.1 hsorted).2.2 entry hentry _ List.mem_cons_self
      rw [List.map_cons]
      change readEntries mode (insertEntry key value before) (after.map _) = _
      rw [insertEntry_of_lt hlt, ih _ (by simpa [Sorted] using hsorted), List.append_assoc]
      rfl
  change (readEntries mode [] (entries.map fun entry => (entry.1, Json.string entry.2)) >>=
    whole true) = _
  rw [hread [] entries h]
  rfl

instance {levels : Nat} : sortedMap.Fits (levels + 1) where
  fits entries := .record fun member hmember => by
    obtain ⟨entry, -, rfl⟩ := List.mem_map.1 hmember
    exact .string levels entry.2

/-- A choice is read back if its table lists the word of each value with the value. -/
theorem exact_choice {word : α → String} {table : List (String × α)} {known : List String}
    (htable : ∀ a, table.find? (·.1 == word a) = some (word a, a)) :
    (choice word table known).Exact where
  restores a mode := by
    dsimp only [choice]
    rw [htable a]

instance {word : α → String} {table : List (String × α)} {known : List String} {levels : Nat} :
    (choice word table known).Fits levels :=
  ⟨fun a => .string levels (word a)⟩

instance {layout : Layout σ} [layout.Exact] : layout.codec.Exact :=
  ⟨fun r => (Layout.Exact.restores r).restores⟩

instance {layout : Layout σ} {levels : Nat} [layout.Fits levels] :
    layout.codec.Fits (levels + 1) :=
  ⟨fun _ => .record fun _ => Layout.fits_of_mem_members⟩

/-! ## Texts -/

/-- **A value is read back from its text.** -/
theorem Restores.ofText_print {codec : Codec α} {levels : Nat} [codec.Fits levels] {a : α}
    (h : codec.Restores a) (hlevels : levels ≤ Json.nestingLimit) :
    codec.ofText (codec.write a).print = .ok a := by
  have hfits : (codec.write a).Fits levels := fits_write a
  unfold ofText
  rw [hfits.read_print hlevels]
  change (codec.read .streamed (codec.write a) >>= whole true) = _
  rw [h .streamed]
  rfl

end Codec

end SchemaMigration
