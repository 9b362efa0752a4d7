import SchemaMigration.Plan.ExtraDependencies
import SchemaMigration.Proofs.Json.RoundTrip
import SchemaMigration.Proofs.Snapshot.FingerprintBytes
import SchemaMigration.Selection.Settings

/-!
# Documents are read back

Every definition, all settings and all extra dependencies are read back from the texts that are
written for them (`documents_read_back`). For each layout it only has to be shown that its fields
have different names and make up the record; the options of a table come back in order only if they
are sorted by their names, as those of every table that is read are.
-/

namespace SchemaMigration

open Codec

/-! ## Words -/

instance : text?.Exact := inferInstanceAs (option string).Exact

instance {levels : Nat} : text?.Fits levels := inferInstanceAs ((option string).Fits levels)

instance : texts.Exact := inferInstanceAs (list string).Exact

instance {levels : Nat} : texts.Fits (levels + 1) :=
  inferInstanceAs ((list string).Fits (levels + 1))

instance : path.Exact := ⟨fun _ _ => rfl⟩

instance {levels : Nat} : path.Fits levels := ⟨.string levels⟩

instance : ObjectKind.codec.Exact := exact_choice fun kind => by cases kind <;> rfl

instance {levels : Nat} : ObjectKind.codec.Fits levels :=
  inferInstanceAs ((choice ..).Fits levels)

instance : ConstraintType.codec.Exact := exact_choice fun type => by cases type <;> rfl

instance {levels : Nat} : ConstraintType.codec.Fits levels :=
  inferInstanceAs ((choice ..).Fits levels)

instance : TypeVariant.codec.Exact := exact_choice fun variant => by cases variant <;> rfl

instance {levels : Nat} : TypeVariant.codec.Fits levels :=
  inferInstanceAs ((choice ..).Fits levels)

/-! ## Records -/

/-- The definition of a table is made up of its fields if its options are sorted. -/
theorem TableDefinition.restores {table : TableDefinition} (h : Sorted table.options) :
    layout.Restores table :=
  ⟨by decide, fun _ => by simp [layout, ok_bind, restores_sortedMap h]⟩

instance {levels : Nat} : TableDefinition.layout.Fits (levels + 1) :=
  ⟨by simp [TableDefinition.layout]⟩

instance : SchemaDefinition.layout.Exact :=
  ⟨fun _ => ⟨by decide, fun _ => by simp [SchemaDefinition.layout]⟩⟩

instance {levels : Nat} : SchemaDefinition.layout.Fits levels := ⟨by simp [SchemaDefinition.layout]⟩

instance : RoleDefinition.layout.Exact :=
  ⟨fun _ => ⟨by decide, fun _ => by simp [RoleDefinition.layout]⟩⟩

instance {levels : Nat} : RoleDefinition.layout.Fits (levels + 1) :=
  ⟨by simp [RoleDefinition.layout]⟩

instance : ColumnDefinition.layout.Exact :=
  ⟨fun _ => ⟨by decide, fun _ => by simp [ColumnDefinition.layout, ok_bind]⟩⟩

instance {levels : Nat} : ColumnDefinition.layout.Fits levels := ⟨by simp [ColumnDefinition.layout]⟩

instance : ForeignKey.layout.Exact :=
  ⟨fun _ => ⟨by decide, fun _ => by simp [ForeignKey.layout, ok_bind]⟩⟩

instance {levels : Nat} : ForeignKey.layout.Fits (levels + 1) := ⟨by simp [ForeignKey.layout]⟩

instance : ConstraintDefinition.layout.Exact :=
  ⟨fun _ => ⟨by decide, fun _ => by simp [ConstraintDefinition.layout, ok_bind]⟩⟩

instance {levels : Nat} : ConstraintDefinition.layout.Fits (levels + 2) :=
  ⟨by simp [ConstraintDefinition.layout]⟩

instance : IndexDefinition.layout.Exact :=
  ⟨fun _ => ⟨by decide, fun _ => by simp [IndexDefinition.layout, ok_bind]⟩⟩

instance {levels : Nat} : IndexDefinition.layout.Fits (levels + 1) :=
  ⟨by simp [IndexDefinition.layout]⟩

instance : ViewDefinition.layout.Exact :=
  ⟨fun _ => ⟨by decide, fun _ => by simp [ViewDefinition.layout, ok_bind]⟩⟩

instance {levels : Nat} : ViewDefinition.layout.Fits (levels + 1) :=
  ⟨by simp [ViewDefinition.layout]⟩

instance : RoutineArgument.layout.Exact :=
  ⟨fun _ => ⟨by decide, fun _ => by simp [RoutineArgument.layout, ok_bind]⟩⟩

instance {levels : Nat} : RoutineArgument.layout.Fits levels := ⟨by simp [RoutineArgument.layout]⟩

instance : RoutineDefinition.layout.Exact :=
  ⟨fun _ => ⟨by decide, fun _ => by simp [RoutineDefinition.layout, ok_bind]⟩⟩

instance {levels : Nat} : RoutineDefinition.layout.Fits (levels + 2) :=
  ⟨by simp [RoutineDefinition.layout]⟩

instance : TriggerDefinition.layout.Exact :=
  ⟨fun _ => ⟨by decide, fun _ => by simp [TriggerDefinition.layout, ok_bind]⟩⟩

instance {levels : Nat} : TriggerDefinition.layout.Fits (levels + 1) :=
  ⟨by simp [TriggerDefinition.layout]⟩

instance : SequenceDefinition.layout.Exact :=
  ⟨fun _ => ⟨by decide, fun _ => by simp [SequenceDefinition.layout, ok_bind]⟩⟩

instance {levels : Nat} : SequenceDefinition.layout.Fits levels :=
  ⟨by simp [SequenceDefinition.layout]⟩

instance : TypeAttribute.layout.Exact :=
  ⟨fun _ => ⟨by decide, fun _ => by simp [TypeAttribute.layout, ok_bind]⟩⟩

instance {levels : Nat} : TypeAttribute.layout.Fits levels := ⟨by simp [TypeAttribute.layout]⟩

instance : TypeDefinition.layout.Exact :=
  ⟨fun _ => ⟨by decide, fun _ => by simp [TypeDefinition.layout, ok_bind]⟩⟩

instance {levels : Nat} : TypeDefinition.layout.Fits (levels + 2) :=
  ⟨by simp [TypeDefinition.layout]⟩

instance : PolicyDefinition.layout.Exact :=
  ⟨fun _ => ⟨by decide, fun _ => by simp [PolicyDefinition.layout, ok_bind]⟩⟩

instance {levels : Nat} : PolicyDefinition.layout.Fits (levels + 1) :=
  ⟨by simp [PolicyDefinition.layout]⟩

instance : IgnoreRule.layout.Exact :=
  ⟨fun _ => ⟨by decide, fun _ => by simp [IgnoreRule.layout, ok_bind]⟩⟩

instance {levels : Nat} : IgnoreRule.layout.Fits (levels + 1) := ⟨by simp [IgnoreRule.layout]⟩

instance : Settings.layout.Exact :=
  ⟨fun _ => ⟨by decide, fun _ => by simp [Settings.layout, ok_bind]⟩⟩

instance {levels : Nat} : Settings.layout.Fits (levels + 3) := ⟨by simp [Settings.layout]⟩

instance : ObjectId.layout.Exact :=
  ⟨fun _ => ⟨by decide, fun _ => by simp [ObjectId.layout, ok_bind]⟩⟩

instance {levels : Nat} : ObjectId.layout.Fits (levels + 1) := ⟨by simp [ObjectId.layout]⟩

instance : DependencyPair.layout.Exact :=
  ⟨fun _ => ⟨by decide, fun _ => by simp [DependencyPair.layout, ok_bind]⟩⟩

instance {levels : Nat} : DependencyPair.layout.Fits (levels + 2) :=
  ⟨by simp [DependencyPair.layout]⟩

instance : ExtraDependencies.layout.Exact :=
  ⟨fun _ => ⟨by decide, fun _ => by simp [ExtraDependencies.layout, ok_bind]⟩⟩

instance {levels : Nat} : ExtraDependencies.layout.Fits (levels + 4) :=
  ⟨by simp [ExtraDependencies.layout]⟩

/-! ## Definitions -/

namespace Definition

/-- The options of a table are sorted by their names; other definitions have none. -/
def Sorted (definition : Definition) : Prop :=
  ∀ table, definition = .table table → Codec.Sorted table.options

/-- A definition is read back from its members, if its kind is known. -/
theorem readAs_record {definition : Definition} (h : definition.Sorted) :
    readAs definition.kind (.record definition.members) = .ok definition := by
  have hrecord : ∀ {σ : Type} {layout : Layout σ} {r : σ} (define : σ → Definition),
      layout.Restores r →
        (layout.codec.read .buffered (.record (layout.members r))).map define = .ok (define r) :=
    fun define hr => map_eq_ok.2 ⟨_, hr.restores .buffered, rfl⟩
  cases definition with
  | database => rfl
  | table definition => exact hrecord table (TableDefinition.restores (h definition rfl))
  | schema definition => exact hrecord schema (Layout.Exact.restores definition)
  | role definition => exact hrecord role (Layout.Exact.restores definition)
  | column definition => exact hrecord column (Layout.Exact.restores definition)
  | constraint definition => exact hrecord constraint (Layout.Exact.restores definition)
  | index definition => exact hrecord index (Layout.Exact.restores definition)
  | view definition => exact hrecord view (Layout.Exact.restores definition)
  | function definition => exact hrecord function (Layout.Exact.restores definition)
  | procedure definition => exact hrecord procedure (Layout.Exact.restores definition)
  | trigger definition => exact hrecord trigger (Layout.Exact.restores definition)
  | sequence definition => exact hrecord sequence (Layout.Exact.restores definition)
  | type definition => exact hrecord type (Layout.Exact.restores definition)
  | policy definition => exact hrecord policy (Layout.Exact.restores definition)

/-- No member of a definition has the name of its kind. -/
theorem ne_kind_of_mem_members {definition : Definition} {member : String × Json}
    (h : member ∈ definition.members) : member.1 ≠ "kind" := by
  have hlayout : ∀ {σ : Type} {layout : Layout σ} {r : σ}, "kind" ∉ layout.fields.map (·.name) →
      member ∈ layout.members r → member.1 ≠ "kind" := by
    intro σ layout r hnot hmember hname
    obtain ⟨field, hfield, rfl⟩ := List.mem_map.1 hmember
    exact hnot (List.mem_map.2 ⟨field, hfield, hname⟩)
  cases definition
  case database => cases h
  all_goals exact hlayout (by decide) h

/-- The members of a definition fit. -/
theorem fits_of_mem_members {levels : Nat} {definition : Definition} {member : String × Json}
    (h : member ∈ definition.members) : member.2.Fits (levels + 2) := by
  cases definition
  case database => cases h
  all_goals exact Layout.fits_of_mem_members h

instance {levels : Nat} : codec.Fits (levels + 3) where
  fits definition := by
    refine .record fun member hmember => ?_
    rcases List.mem_cons.1 hmember with rfl | hmember
    · exact .string _ _
    · exact fits_of_mem_members hmember

/-- The kind is taken out of the members of a definition. -/
theorem splitKind_members (mode : Mode) (definition : Definition) :
    splitKind mode none (("kind", .string definition.kind.name) :: definition.members) =
      .ok (some definition.kind, definition.members) := by
  have hothers : ∀ (kind : ObjectKind) (members : List (String × Json)),
      (∀ member ∈ members, member.1 ≠ "kind" ∧ member.2.isUsable = true) →
        splitKind mode (some kind) members = .ok (some kind, members) := by
    intro kind members hmembers
    induction members with
    | nil => rfl
    | cons member members ih =>
      obtain ⟨⟨hname, husable⟩, hrest⟩ := List.forall_mem_cons.1 hmembers
      rw [splitKind, if_neg hname, if_pos husable, ih hrest]
      rfl
  rw [splitKind, if_pos rfl]
  change (readKind mode (.string definition.kind.name) >>= _) = _
  rw [readKind, ObjectKind.ofName?_name]
  exact hothers _ _ fun member hmember =>
    ⟨ne_kind_of_mem_members hmember, (fits_of_mem_members hmember : member.2.Fits 2).isUsable⟩

/-- A definition is read back. -/
theorem restores {definition : Definition} (h : definition.Sorted) : codec.Restores definition := by
  intro mode
  change ofMembers mode (("kind", .string definition.kind.name) :: definition.members) true = _
  rw [ofMembers, splitKind_members, ok_bind]
  exact readAs_record h

end Definition

/-- **Documents are read back.** From the text that is written for a definition, whose options are
sorted if it is that of a table, for settings or for extra dependencies, the same is read again. So
two definitions are written as one text only if they are one definition, and two statements have the
same own bytes only if their definitions are one. -/
theorem documents_read_back :
    (∀ definition : Definition, definition.Sorted →
      Definition.codec.ofText definition.text = .ok definition) ∧
    (∀ a b : Definition, a.text = b.text ↔ a = b) ∧
    (∀ s t : Statement, Fingerprint.ownBytes s = Fingerprint.ownBytes t →
      s.definition = t.definition) ∧
    (∀ settings : Settings,
      Settings.layout.codec.ofText (Settings.layout.codec.write settings).print = .ok settings) ∧
    ∀ extra : ExtraDependencies,
      ExtraDependencies.layout.codec.ofText (ExtraDependencies.layout.codec.write extra).print =
        .ok extra := by
  refine ⟨fun definition h =>
      (Definition.restores h).ofText_print (by decide : 3 ≤ Json.nestingLimit),
    fun a b => ⟨fun h => ?_, ?_⟩, fun s t h => (Fingerprint.ownBytes_eq_iff.1 h).2.1,
    fun settings => ?_, fun extra => ?_⟩
  · have hends : Json.Ends "".toList := by rintro _ ⟨⟩
    exact (Definition.text_append_inj hends hends (congrArg (· ++ "") h)).1
  · rintro rfl
    rfl
  · exact (Exact.restores settings).ofText_print (by decide : 4 ≤ Json.nestingLimit)
  · exact (Exact.restores extra).ofText_print (by decide : 5 ≤ Json.nestingLimit)

/-- A table with two options, a text in quotation marks and one with a line feed. -/
def Definition.partitioned : Definition :=
  .table {
    options := [("autovacuum_enabled", "false"), ("fillfactor", "70")]
    unlogged := true
    partitionBy := some "RANGE (\"at\")"
    ttl := some "at\n+ 1" }

/-- The definition of the table is read back from its text. -/
theorem partitioned_read_back :
    Definition.partitioned.Sorted ∧
      Definition.codec.ofText Definition.partitioned.text = .ok Definition.partitioned := by
  have hsorted : Definition.partitioned.Sorted := by
    rintro _ ⟨⟩
    decide
  exact ⟨hsorted, documents_read_back.1 _ hsorted⟩

end SchemaMigration
