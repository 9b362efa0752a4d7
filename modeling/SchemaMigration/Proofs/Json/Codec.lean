import SchemaMigration.Json.Codec
import SchemaMigration.Proofs.Json.Printer

/-!
# What codecs write

Two values are written as one document only if they are one value, and what is written is complete
(`Codec.Faithful`). A list, an optional value and a record have this from their parts, so that it is
found for a codec along the way in which it is put together.
-/

namespace SchemaMigration

variable {α : Type}

/-- A codec writes different values as different documents, which are plain. -/
class Codec.Faithful (codec : Codec α) : Prop where
  injective : Function.Injective codec.write
  plain : ∀ a, (codec.write a).Plain

/-- A codec writes no value as `null`. -/
class Codec.Definite (codec : Codec α) : Prop where
  ne_null : ∀ a, codec.write a ≠ .null

/-- A layout writes different records differently in some field, and its documents are plain. -/
class Layout.Faithful {σ : Type} (layout : Layout σ) : Prop where
  ext : ∀ {r s}, (∀ field ∈ layout.fields, field.write r = field.write s) → r = s
  plain : ∀ field ∈ layout.fields, ∀ r, (field.write r).Plain

@[simp]
theorem Field.write_needed {σ : Type} (name : String) (codec : Codec α) (get : σ → α)
    (set : α → σ → σ) (r : σ) : (needed name codec get set).write r = codec.write (get r) := rfl

@[simp]
theorem Field.write_defaulted {σ : Type} (name : String) (codec : Codec α) (get : σ → α)
    (set : α → σ → σ) (r : σ) : (defaulted name codec get set).write r = codec.write (get r) := rfl

namespace Layout

variable {σ : Type} {layout : Layout σ} [layout.Faithful]

/-- The members of different records are different. -/
theorem members_injective : Function.Injective layout.members := fun _ _ h =>
  Faithful.ext fun field hfield => congrArg Prod.snd (List.map_inj_left.1 h field hfield)

/-- The documents of members are plain. -/
theorem plain_of_mem_members {r : σ} {member : String × Json} (h : member ∈ layout.members r) :
    member.2.Plain := by
  obtain ⟨field, hfield, rfl⟩ := List.mem_map.1 h
  exact Faithful.plain field hfield r

end Layout

namespace Codec

@[simp]
theorem write_inj {codec : Codec α} [codec.Faithful] {a b : α} :
    codec.write a = codec.write b ↔ a = b :=
  Faithful.injective.eq_iff

@[simp]
theorem plain_write {codec : Codec α} [codec.Faithful] (a : α) : (codec.write a).Plain :=
  Faithful.plain a

instance : string.Faithful := ⟨fun _ _ => Json.string.inj, .string⟩

instance : string.Definite := ⟨fun _ h => by cases h⟩

instance : bool.Faithful := ⟨fun _ _ => Json.bool.inj, .bool⟩

/-- Two integers are written as one number only if they are equal. -/
theorem integer_inj {a b : Int} (h : Json.integer a = Json.integer b) : a = b :=
  Numeral.integer.inj (Json.number.inj h)

instance : int64.Faithful :=
  ⟨fun _ _ h => Int64.toInt_inj.1 (integer_inj h), fun a => .integer a.toInt⟩

instance : int64.Definite := ⟨fun _ h => by cases h⟩

instance : uint32.Faithful :=
  ⟨fun _ _ h => UInt32.toNat_inj.1 (Int.ofNat.inj (integer_inj h)), fun a => .integer a.toNat⟩

instance : uint32.Definite := ⟨fun _ h => by cases h⟩

instance {codec : Codec α} [codec.Faithful] [codec.Definite] : (option codec).Faithful where
  injective a b h := by
    cases a with
    | none =>
      cases b with
      | none => rfl
      | some b => exact absurd h.symm (Definite.ne_null b)
    | some a =>
      cases b with
      | none => exact absurd h (Definite.ne_null a)
      | some b => exact congrArg some (write_inj.1 (show codec.write a = codec.write b from h))
  plain a := by
    cases a with
    | none => exact .null
    | some a => exact plain_write a

instance {codec : Codec α} [codec.Faithful] : (list codec).Faithful where
  injective _ _ h := (Faithful.injective.list_map) (Json.array.inj h).1
  plain values := .list fun item hitem => by
    obtain ⟨value, -, rfl⟩ := List.mem_map.1 hitem
    exact plain_write value

instance : sortedMap.Faithful where
  injective _ _ h := by
    refine Function.Injective.list_map ?_ (Json.object.inj h).1
    rintro ⟨key, value⟩ ⟨key', value'⟩ h
    simpa using h
  plain entries := .record fun member hmember => by
    obtain ⟨entry, -, rfl⟩ := List.mem_map.1 hmember
    exact .string entry.2

/-- A choice writes different values differently if their words differ. -/
theorem faithful_choice {word : α → String} (hword : Function.Injective word)
    (table : List (String × α)) (known : List String) : (choice word table known).Faithful :=
  ⟨fun _ _ h => hword (Json.string.inj h), fun a => .string (word a)⟩

instance {σ : Type} {layout : Layout σ} [layout.Faithful] : layout.codec.Faithful where
  injective _ _ h := Layout.members_injective (Json.object.inj h).1
  plain _ := .record fun _ => Layout.plain_of_mem_members

instance {σ : Type} {layout : Layout σ} : layout.codec.Definite := ⟨fun _ h => by cases h⟩

end Codec

end SchemaMigration
