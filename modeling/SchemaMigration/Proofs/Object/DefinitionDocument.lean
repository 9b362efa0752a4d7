import SchemaMigration.Object.DefinitionDocument
import SchemaMigration.Proofs.Json.Codec

/-!
# The text of a definition says all of it

Two definitions are written as one text only if they are one definition, and the text of a
definition can be told from what follows it (`Definition.text_append_inj`). For each layout the only
thing to show is that its fields show the whole record.
-/

namespace SchemaMigration

open Codec

/-! ## Words -/

instance : text?.Faithful := inferInstanceAs (option string).Faithful

instance : texts.Faithful := inferInstanceAs (list string).Faithful

instance : ConstraintType.codec.Faithful :=
  faithful_choice (fun a b h => by cases a <;> cases b <;> simp [ConstraintType.word] at h ⊢) _ _

instance : TypeVariant.codec.Faithful :=
  faithful_choice (fun a b h => by cases a <;> cases b <;> simp [TypeVariant.word] at h ⊢) _ _

/-! ## Records -/

instance : SchemaDefinition.layout.Faithful where
  ext {a b} h := by
    cases a
    cases b
    simpa [SchemaDefinition.layout] using h
  plain := by simp [SchemaDefinition.layout]

instance : RoleDefinition.layout.Faithful where
  ext {a b} h := by
    cases a
    cases b
    simpa [RoleDefinition.layout] using h
  plain := by simp [RoleDefinition.layout]

instance : TableDefinition.layout.Faithful where
  ext {a b} h := by
    cases a
    cases b
    simpa [TableDefinition.layout] using h
  plain := by simp [TableDefinition.layout]

instance : ColumnDefinition.layout.Faithful where
  ext {a b} h := by
    cases a
    cases b
    simpa [ColumnDefinition.layout] using h
  plain := by simp [ColumnDefinition.layout]

instance : ForeignKey.layout.Faithful where
  ext {a b} h := by
    cases a
    cases b
    simpa [ForeignKey.layout] using h
  plain := by simp [ForeignKey.layout]

instance : ConstraintDefinition.layout.Faithful where
  ext {a b} h := by
    cases a
    cases b
    simpa [ConstraintDefinition.layout] using h
  plain := by simp [ConstraintDefinition.layout]

instance : IndexDefinition.layout.Faithful where
  ext {a b} h := by
    cases a
    cases b
    simpa [IndexDefinition.layout] using h
  plain := by simp [IndexDefinition.layout]

instance : ViewDefinition.layout.Faithful where
  ext {a b} h := by
    cases a
    cases b
    simpa [ViewDefinition.layout] using h
  plain := by simp [ViewDefinition.layout]

instance : RoutineArgument.layout.Faithful where
  ext {a b} h := by
    cases a
    cases b
    simpa [RoutineArgument.layout] using h
  plain := by simp [RoutineArgument.layout]

instance : RoutineDefinition.layout.Faithful where
  ext {a b} h := by
    cases a
    cases b
    simpa [RoutineDefinition.layout] using h
  plain := by simp [RoutineDefinition.layout]

instance : TriggerDefinition.layout.Faithful where
  ext {a b} h := by
    cases a
    cases b
    simpa [TriggerDefinition.layout] using h
  plain := by simp [TriggerDefinition.layout]

instance : SequenceDefinition.layout.Faithful where
  ext {a b} h := by
    cases a
    cases b
    simpa [SequenceDefinition.layout] using h
  plain := by simp [SequenceDefinition.layout]

instance : TypeAttribute.layout.Faithful where
  ext {a b} h := by
    cases a
    cases b
    simpa [TypeAttribute.layout] using h
  plain := by simp [TypeAttribute.layout]

instance : TypeDefinition.layout.Faithful where
  ext {a b} h := by
    cases a
    cases b
    simpa [TypeDefinition.layout] using h
  plain := by simp [TypeDefinition.layout]

instance : PolicyDefinition.layout.Faithful where
  ext {a b} h := by
    cases a
    cases b
    simpa [PolicyDefinition.layout] using h
  plain := by simp [PolicyDefinition.layout]

/-! ## Definitions -/

namespace Definition

/-- Definitions of one kind with the same members are equal. -/
theorem eq_of_members_eq {a b : Definition} (hkind : a.kind = b.kind) (h : a.members = b.members) :
    a = b := by
  cases a <;> cases b <;> cases hkind
  case database.database => rfl
  all_goals
    obtain rfl := Layout.members_injective h
    rfl

instance : codec.Faithful where
  injective a b h := by
    obtain ⟨hkind, hmembers⟩ := List.cons.inj (Json.object.inj h).1
    refine eq_of_members_eq ?_ hmembers
    have hname := Json.string.inj (Prod.mk.inj hkind).2
    exact Option.some.inj (by rw [← ObjectKind.ofName?_name, hname, ObjectKind.ofName?_name])
  plain a := by
    refine .record fun member hmember => ?_
    rcases List.mem_cons.1 hmember with rfl | hmember
    · exact .string _
    · cases a
      case database => cases hmember
      all_goals exact Layout.plain_of_mem_members hmember

/-- **The text of a definition says all of it**, and can be told from what follows it. -/
theorem text_append_inj {a b : Definition} {x y : String} (hx : Json.Ends x.toList)
    (hy : Json.Ends y.toList) (h : a.text ++ x = b.text ++ y) : a = b ∧ x = y := by
  have hchars := congrArg String.toList h
  simp only [text, Json.print, String.toList_append, String.toList_ofList] at hchars
  obtain ⟨hdocument, hrest⟩ := (plain_write a).chars_append_inj (plain_write b) hx hy hchars
  exact ⟨write_inj.1 hdocument, String.toList_inj.1 hrest⟩

end Definition

end SchemaMigration
