import SchemaMigration.Proofs.Snapshot.Dependencies

/-!
# The order of siblings

Two runs of calls may add the same statements, with the same stated dependencies, in different
orders (`Builder.Alike`). What is looked up by an identity is the same then, and so is what names
stand for, unless they are ambiguous (`NameLookup.Ambiguous`). So a statement none of whose names is
ambiguous has the same dependencies in both snapshots (`Builder.order_matters_only_if_ambiguous`).
-/

namespace SchemaMigration

/-! ## The names that a statement looks up -/

/-- The names in a definition that are looked up, apart from those in its text. -/
def Definition.names : Definition → List (ObjectKind × List String)
  | .column definition =>
    (.type, Dependency.typeName definition.dataType) ::
      ((definition.default.map Sql.sequenceNames).getD []).map fun name =>
        (.sequence, (Text.splitAt '.' name).map unquoted)
  | .trigger definition =>
    definition.function.toList.map fun function =>
      (.function, Text.splitAt '.' (Text.before '(' function))
  | .function definition | .procedure definition =>
    (definition.arguments.map (·.dataType) ++ definition.returns.toList).map fun dataType =>
      (.type, Dependency.typeName dataType)
  | .type definition =>
    (definition.attributes.map (·.dataType) ++ definition.baseType.toList).map fun dataType =>
      (.type, Dependency.typeName dataType)
  | _ => []

namespace Statement

/-- A statement looks a name up among objects of some kinds, in its definition or in its text. -/
def LooksUp (read : Sql.Reader) (dialect : Dialect) (s : Statement) (kinds : List ObjectKind)
    (parts : List String) : Prop :=
  (∃ kind, kinds = [kind] ∧ (kind, parts) ∈ s.definition.names) ∨
    ∃ sql path, s.definition.query? = some sql ∧ parts = path.map unquoted ∧
      let references := Sql.References.ofText read dialect sql
      (kinds = Dependency.relationKinds ∧
          (path ∈ references.relations ∨ path ∈ references.wildcards) ∨
        kinds = [.function] ∧ path ∈ references.functions)

/-- None of the names that a statement looks up among some identities is ambiguous. -/
def Clear (read : Sql.Reader) (dialect : Dialect) (ids : List ObjectId) (s : Statement) : Prop :=
  ∀ kinds parts, s.LooksUp read dialect kinds parts →
    ¬NameLookup.Ambiguous ids kinds s.id.schemaName? parts

/-- A statement stands for the same object in the same place, with the same stated dependencies. -/
structure Matches (s t : Statement) : Prop where
  id : t.id = s.id
  parent : t.parent = s.parent
  definition : t.definition = s.definition
  stated : ∀ id, id ∈ t.stated ↔ id ∈ s.stated

instance (s t : Statement) : Decidable (s.Matches t) :=
  decidable_of_iff (t.id = s.id ∧ t.parent = s.parent ∧ t.definition = s.definition ∧
      t.stated ⊆ s.stated ∧ s.stated ⊆ t.stated)
    ⟨fun ⟨hid, hparent, hdefinition, hback, hforth⟩ =>
        ⟨hid, hparent, hdefinition, fun _ => ⟨fun h => hback h, fun h => hforth h⟩⟩,
      fun h => ⟨h.id, h.parent, h.definition, fun id => (h.stated id).1, fun id => (h.stated id).2⟩⟩

end Statement

namespace Dependency

variable {statements others : List Statement} {s t : Statement}

/-- Whether an identity is there depends on the identities. -/
theorem has_eq_of_ids (hids : ∀ id, id ∈ Statements.ids others ↔ id ∈ Statements.ids statements)
    (id : ObjectId) : Statements.has others id = Statements.has statements id := by
  have hmem (statements : List Statement) :
      Statements.has statements id = true ↔ id ∈ Statements.ids statements := by
    simp [Statements.has, Statements.ids]
  rw [Bool.eq_iff_iff, hmem, hmem, hids]

/-- What definitions mention that look up names: what the names stand for. -/
theorem ofDefinition_eq_names (hconstraint : s.definition.kind ≠ .constraint)
    (hindex : s.definition.kind ≠ .index) : ofDefinition statements s =
      s.definition.names.filterMap fun name => named? statements s name.1 name.2 := by
  have htype : typeOf? statements s =
      fun dataType => named? statements s .type (typeName dataType) := rfl
  unfold ofDefinition
  cases hs : s.definition with
  | constraint => simp [hs, Definition.kind] at hconstraint
  | index => simp [hs, Definition.kind] at hindex
  | column definition =>
    simp only [Definition.names, htype, List.filterMap_cons, List.filterMap_map,
      Function.comp_def]
    cases named? statements s .type (typeName definition.dataType) <;> simp
  | trigger definition =>
    cases hfunction : definition.function with
    | none => simp [Definition.names, hfunction]
    | some function =>
      simp only [Definition.names, hfunction, Option.toList_some, List.map_cons, List.map_nil,
        List.filterMap_cons, List.filterMap_nil]
      cases named? statements s .function (Text.splitAt '.' (Text.before '(' function)) <;> simp
  | function | procedure | type =>
    simp only [Definition.names, htype, List.filterMap_map, List.filterMap_append,
      Function.comp_def]
  | _ => rfl

/-- What a definition mentions is the same among other statements if the same identities are there
and its names stand for the same ones. -/
theorem ofDefinition_congr (hid : t.id = s.id) (hparent : t.parent = s.parent)
    (hdefinition : t.definition = s.definition)
    (hhas : ∀ id, Statements.has others id = Statements.has statements id)
    (hnames : ∀ name ∈ s.definition.names,
      named? others s name.1 name.2 = named? statements s name.1 name.2) :
    ofDefinition others t = ofDefinition statements s := by
  have hcolumn : columnOf? others = columnOf? statements := by
    funext table name
    simp only [columnOf?, hhas]
  by_cases hlooks : s.definition.kind ≠ .constraint ∧ s.definition.kind ≠ .index
  · rw [ofDefinition_eq_names hlooks.1 hlooks.2,
      ofDefinition_eq_names (hdefinition ▸ hlooks.1) (hdefinition ▸ hlooks.2), hdefinition]
    refine List.filterMap_congr fun name hname => ?_
    rw [← hnames name hname, named?, named?, hid]
  · -- Constraints and indexes mention columns and tables by their identities.
    unfold ofDefinition
    rw [hdefinition, hparent, hcolumn]
    cases hs : s.definition with
    | constraint | index => rfl
    | _ => simp [hs, Definition.kind] at hlooks

end Dependency

namespace Builder

open Dependency

variable {b c next : Builder} {id parent : ObjectId} {s : Statement} {snapshot : Snapshot}

/-! ## Runs without analysis -/

/-- Nothing was analysed yet: all texts wait, and no dependency is known. -/
structure Fresh (b : Builder) : Prop where
  free : ∀ s ∈ b.statements, s.dependencies = []
  waits : ∀ s ∈ b.statements, ∀ sql, s.definition.query? = some sql → ⟨s.id, sql⟩ ∈ b.tasks

/-- Changing other things about a statement leaves a builder fresh. -/
theorem Fresh.modify {change : Statement → Statement} (hb : b.Fresh)
    (h : b.modify id change = .ok next) (hchange : ∀ s : Statement, s.Stays (change s))
    (hfree : ∀ s : Statement, (change s).dependencies = s.dependencies) : next.Fresh := by
  obtain ⟨-, rfl⟩ := modify_eq_ok.1 h
  constructor
  · intro t ht
    obtain ⟨s, hs, rfl⟩ := List.mem_map.1 ht
    split
    · exact (hfree s).trans (hb.free s hs)
    · exact hb.free s hs
  · intro t ht
    obtain ⟨s, hs, rfl⟩ := List.mem_map.1 ht
    split
    · rw [(hchange s).definition, (hchange s).id]
      exact hb.waits s hs
    · exact hb.waits s hs

/-- Adding a statement leaves a builder fresh. -/
theorem Fresh.add {name : String} {definition : Definition} (hb : b.Fresh)
    (h : b.add parent name definition = .ok (id, next)) : next.Fresh := by
  obtain ⟨-, -, -, -, rfl⟩ := add_eq_ok.1 h
  constructor
  · intro t ht
    rcases List.mem_append.1 ht with ht | ht
    · obtain ⟨s, hs, rfl⟩ := List.mem_map.1 ht
      split <;> exact hb.free s hs
    · rw [List.mem_singleton.1 ht]
  · intro t ht sql hsql
    rcases List.mem_append.1 ht with ht | ht
    · obtain ⟨s, hs, rfl⟩ := List.mem_map.1 ht
      refine List.mem_append_left _ ?_
      split at hsql <;> split <;> exact hb.waits s hs sql hsql
    · obtain rfl := List.mem_singleton.1 ht
      exact List.mem_append_right _ (List.mem_map_of_mem (Option.mem_toList.2 hsql))

/-- Calls other than draining leave a builder fresh. -/
theorem Fresh.after {call : Call} (hb : b.Fresh) (hcall : call ≠ .drain) :
    (b.after call).Fresh := by
  unfold Builder.after
  split
  · next next hnext =>
    cases call with
    | add parent name definition =>
      obtain ⟨⟨id, _⟩, hadded, rfl⟩ := map_eq_ok.1 hnext
      exact hb.add hadded
    | setOwner | setComment =>
      exact hb.modify hnext (fun _ => ⟨rfl, rfl, rfl, rfl⟩) fun _ => rfl
    | depend _ dependency =>
      refine hb.modify hnext (fun s => stays_state s dependency) fun s => ?_
      unfold Statement.state
      split <;> rfl
    | drain => exact absurd rfl hcall
  · exact hb

/-- A run without draining leads to a builder in which nothing was analysed. -/
theorem fresh_run (read : Sql.Reader) (dialect : Dialect) {calls : List Call}
    (hcalls : .drain ∉ calls) : ((new dialect read).run calls).Fresh := by
  refine List.foldlRecOn calls Builder.after ?_ fun b hb call hcall => hb.after ?_
  · constructor <;> simp [new, Definition.query?]
  · exact fun hdrain => hcalls (hdrain ▸ hcall)

/-- In a fresh builder analysis finds for a statement what its text refers to. -/
theorem Fresh.mem_analysed_iff (hb : b.Fresh) (h : b.Reachable) (hs : s ∈ b.statements) :
    id ∈ (b.analysed s).dependencies ↔ ∃ sql, s.definition.query? = some sql ∧
      id ∈ ofReferences b.statements s.id (.ofText b.read b.dialect sql) := by
  cases hquery : s.definition.query? with
  | none =>
    -- Tasks are of statements that have a text.
    have hnone : b.tasks.find? (·.id = s.id) = none := by
      refine List.find?_eq_none.2 fun task htask hid => ?_
      obtain ⟨t, ht, htid, hasks⟩ := h.queued.asked task htask
      obtain rfl := List.inj_on_of_nodup_map h.wellFormed.distinct ht hs
        (htid.trans (of_decide_eq_true hid))
      rw [Definition.query?_eq_some.2 hasks] at hquery
      cases hquery
    rw [analysed, hnone]
    simp [hb.free s hs]
  | some sql =>
    rw [mem_analysed_iff_of_task h.queued.distinct (hb.waits s hs sql hquery) rfl (hb.free s hs)]
    simp

/-! ## Snapshots without ambiguity -/

theorem stated_analysed (b : Builder) (s : Statement) : (b.analysed s).stated = s.stated := by
  rw [analysed]
  split
  · exact Statement.stated_addDependencies _
  · rfl

theorem ids_drain (h : b.Reachable) :
    Statements.ids b.drain.statements = Statements.ids b.statements := by
  rw [Statements.ids, statements_drain h.queued.distinct, List.map_map]
  exact List.map_congr_left fun s _ => (b.stays_analysed s).id

/-- A builder can be finished after draining if all that its statements demand is there. -/
theorem exists_finish_drain_iff (h : b.Reachable) :
    (∃ snapshot, b.drain.finish = .ok snapshot) ↔
      ∀ s ∈ b.statements, ∀ id, Demands s id → id ∈ Statements.ids b.statements := by
  have hthere (id : ObjectId) :
      b.drain.tree.contains id = true ↔ id ∈ Statements.ids b.statements := by
    rw [← ids_drain h, Snapshot.contains_iff_exists_mem]
    exact List.mem_map.symm
  have hdemands (s : Statement) (id : ObjectId) : Demands (b.analysed s) id ↔ Demands s id := by
    rw [Demands, Demands, stated_analysed, Statement.RefersTo, Statement.RefersTo,
      (b.stays_analysed s).definition]
  simp only [finish_eq_ok, exists_and_left, exists_eq, and_true, missing?_eq_none, hthere,
    statements_drain h.queued.distinct, List.forall_mem_map, hdemands]
  exact and_iff_right rfl

/-- What a statement comes to depend on: what its text refers to, what was stated of it, and what
its definition mentions. -/
def Implies (b : Builder) (s : Statement) (id : ObjectId) : Prop :=
  (∃ sql, s.definition.query? = some sql ∧
      id ∈ ofReferences b.statements s.id (.ofText b.read b.dialect sql)) ∨
    (id ∈ s.stated ∨ id ∈ ofDefinition b.statements s) ∧ id ≠ s.id

/-- Finishing a fresh builder after draining gives each statement the dependencies that are implied
for it. -/
theorem Fresh.exists_map_of_finish (hb : b.Fresh) (h : b.Reachable)
    (hfinish : b.drain.finish = .ok snapshot) :
    ∃ f, snapshot.statements = b.statements.map f ∧ ∀ s ∈ b.statements, s.Stays (f s) ∧
      ∀ id, id ∈ (f s).dependencies ↔ b.Implies s id := by
  obtain ⟨-, -, rfl⟩ := finish_eq_ok.1 hfinish
  have hdefinition (s : Statement) :
      ofDefinition b.drain.statements (b.analysed s) = ofDefinition b.statements s := by
    have hstays := b.stays_analysed s
    refine ofDefinition_congr hstays.id hstays.parent hstays.definition
      (has_eq_of_ids fun id => by rw [ids_drain h]) fun name _ => ?_
    rw [named?, named?, ids_drain h]
  refine ⟨fun s => (b.analysed s).addDependencies ((b.analysed s).stated ++
    ofDefinition b.drain.statements (b.analysed s)), ?_, fun s hs => ⟨?_, fun id => ?_⟩⟩
  · dsimp only [linked]
    rw [statements_drain h.queued.distinct, List.map_map]
    rfl
  · have hstays := b.stays_analysed s
    have hadded := stays_addDependencies (b.analysed s)
      ((b.analysed s).stated ++ ofDefinition b.drain.statements (b.analysed s))
    exact ⟨hadded.id.trans hstays.id, hadded.parent.trans hstays.parent,
      hadded.children.trans hstays.children, hadded.definition.trans hstays.definition⟩
  · rw [Statement.mem_addDependencies, hb.mem_analysed_iff h hs, stated_analysed, hdefinition,
      (b.stays_analysed s).id, List.mem_append, Implies]

/-! ## The same statements in another order -/

/-- Two builders have the same statements, in whatever order. -/
structure Alike (b c : Builder) : Prop where
  forth : ∀ s ∈ b.statements, ∃ t ∈ c.statements, s.Matches t
  back : ∀ t ∈ c.statements, ∃ s ∈ b.statements, s.Matches t

instance (b c : Builder) : Decidable (b.Alike c) :=
  decidable_of_iff ((∀ s ∈ b.statements, ∃ t ∈ c.statements, s.Matches t) ∧
      ∀ t ∈ c.statements, ∃ s ∈ b.statements, s.Matches t)
    ⟨fun ⟨hforth, hback⟩ => ⟨hforth, hback⟩, fun h => ⟨h.forth, h.back⟩⟩

namespace Alike

/-- The same identities are there. -/
theorem mem_ids_iff (h : b.Alike c) :
    id ∈ Statements.ids c.statements ↔ id ∈ Statements.ids b.statements := by
  constructor
  · intro hid
    obtain ⟨t, ht, rfl⟩ := List.mem_map.1 hid
    obtain ⟨s, hs, hmatches⟩ := h.back t ht
    exact hmatches.id ▸ List.mem_map_of_mem hs
  · intro hid
    obtain ⟨s, hs, rfl⟩ := List.mem_map.1 hid
    obtain ⟨t, ht, hmatches⟩ := h.forth s hs
    exact hmatches.id ▸ List.mem_map_of_mem ht

section
variable (h : b.Alike c) (hb : b.Reachable) (hc : c.Reachable)
include h hb hc

/-- The identities are the same but for their order. -/
theorem ids_perm : (Statements.ids c.statements).Perm (Statements.ids b.statements) :=
  (List.perm_ext_iff_of_nodup hc.wellFormed.distinct hb.wellFormed.distinct).2
    fun _ => h.mem_ids_iff

/-- A table has the same columns. -/
theorem exists_column_iff {table : ObjectId} {P : ObjectId → Prop} :
    (∃ column ∈ Statements.columns c.statements table, P column.id) ↔
      ∃ column ∈ Statements.columns b.statements table, P column.id := by
  have hmem {b : Builder} (hb : b.Reachable) {column : Statement} :
      column ∈ Statements.columns b.statements table ↔
        column ∈ b.statements ∧ column.parent = some table ∧ column.kind = .column :=
    hb.wellFormed.mem_columns_iff
  simp only [hmem hb, hmem hc]
  constructor
  · rintro ⟨t, ⟨ht, hparent, hkind⟩, hP⟩
    obtain ⟨s, hs, hmatches⟩ := h.back t ht
    refine ⟨s, ⟨hs, hmatches.parent ▸ hparent, ?_⟩, hmatches.id ▸ hP⟩
    rwa [Statement.kind, hmatches.id] at hkind
  · rintro ⟨s, ⟨hs, hparent, hkind⟩, hP⟩
    obtain ⟨t, ht, hmatches⟩ := h.forth s hs
    refine ⟨t, ⟨ht, hmatches.parent.trans hparent, ?_⟩, hmatches.id.symm ▸ hP⟩
    rwa [Statement.kind, hmatches.id]

/-- A text refers to the same statements if its names stand for the same ones. -/
theorem mem_ofReferences_iff {owner : ObjectId} {references : Sql.References}
    (hrelation : ∀ path, path ∈ references.relations ∨ path ∈ references.wildcards →
      relation? c.statements owner path = relation? b.statements owner path)
    (hfunction : ∀ path ∈ references.functions,
      function? c.statements owner path = function? b.statements owner path) :
    id ∈ ofReferences c.statements owner references ↔
      id ∈ ofReferences b.statements owner references := by
  have hfound (paths : List (List String)) {find find' : List String → Option ObjectId}
      (hfind : ∀ path ∈ paths, find' path = find path) (table : ObjectId) :
      (∃ path ∈ paths, find' path = some table) ↔ ∃ path ∈ paths, find path = some table :=
    exists_congr fun path => and_congr_right fun hpath => by rw [hfind path hpath]
  have hread := hfound references.relations fun path hpath => hrelation path (.inl hpath)
  have hwhole := hfound references.wildcards fun path hpath => hrelation path (.inr hpath)
  have hcolumn (table : ObjectId) :
      (∃ column ∈ Statements.columns c.statements table, column.id = id) ↔
        ∃ column ∈ Statements.columns b.statements table, column.id = id :=
    h.exists_column_iff hb hc (P := (· = id))
  have hnamed (table : ObjectId) (name : String) :
      (∃ column ∈ Statements.columns c.statements table,
        Text.sameIgnoringCase column.name name = true ∧ column.id = id) ↔
      ∃ column ∈ Statements.columns b.statements table,
        Text.sameIgnoringCase column.name name = true ∧ column.id = id :=
    h.exists_column_iff hb hc
      (P := fun column => Text.sameIgnoringCase column.bareName name = true ∧ column = id)
  simp only [Dependency.mem_ofReferences_iff, hread, hwhole, hfound _ hfunction, hcolumn,
    hnamed]

/-- The same is implied for a statement none of whose names is ambiguous. -/
theorem implies_iff (hdialect : c.dialect = b.dialect) (hread : c.read = b.read) {s t : Statement}
    (hmatches : s.Matches t) (hclear : s.Clear b.read b.dialect (Statements.ids b.statements)) :
    c.Implies t id ↔ b.Implies s id := by
  have hresolve {kinds : List ObjectKind} {parts : List String}
      (hlooks : s.LooksUp b.read b.dialect kinds parts) :
      NameLookup.resolve? (Statements.ids c.statements) kinds s.id.schemaName? parts =
        NameLookup.resolve? (Statements.ids b.statements) kinds s.id.schemaName? parts :=
    NameLookup.resolve?_eq_of_perm (h.ids_perm hb hc) (hclear _ _ hlooks)
  have hdefinition : ofDefinition c.statements t = ofDefinition b.statements s := by
    refine ofDefinition_congr hmatches.id hmatches.parent hmatches.definition
      (has_eq_of_ids fun id => h.mem_ids_iff) fun name hname => ?_
    exact hresolve (.inl ⟨name.1, rfl, hname⟩)
  have hreferences {sql : String} (hsql : s.definition.query? = some sql) :
      id ∈ ofReferences c.statements s.id (.ofText b.read b.dialect sql) ↔
        id ∈ ofReferences b.statements s.id (.ofText b.read b.dialect sql) := by
    refine h.mem_ofReferences_iff hb hc (fun path hpath => ?_) fun path hpath => ?_
    · exact hresolve (.inr ⟨sql, path, hsql, rfl, .inl ⟨rfl, hpath⟩⟩)
    · exact hresolve (.inr ⟨sql, path, hsql, rfl, .inr ⟨rfl, hpath⟩⟩)
  rw [Implies, Implies, hmatches.definition, hmatches.id, hmatches.stated, hdefinition, hdialect,
    hread]
  exact or_congr_left (exists_congr fun sql => and_congr_right hreferences)

/-- Both builders can be finished after draining, or none. -/
theorem exists_finish_iff : (∃ snapshot, b.drain.finish = .ok snapshot) ↔
    ∃ snapshot, c.drain.finish = .ok snapshot := by
  have hdemands {s t : Statement} (hmatches : s.Matches t) (id : ObjectId) :
      Demands t id ↔ Demands s id := by
    rw [Demands, Demands, hmatches.stated, Statement.RefersTo, Statement.RefersTo,
      hmatches.definition]
  rw [exists_finish_drain_iff hb, exists_finish_drain_iff hc]
  constructor
  · intro hthere t ht id hdemanded
    obtain ⟨s, hs, hmatches⟩ := h.back t ht
    exact h.mem_ids_iff.2 (hthere s hs id ((hdemands hmatches id).1 hdemanded))
  · intro hthere s hs id hdemanded
    obtain ⟨t, ht, hmatches⟩ := h.forth s hs
    exact h.mem_ids_iff.1 (hthere t ht id ((hdemands hmatches id).2 hdemanded))

end

end Alike

/-- **Only ambiguous names make the order matter.** Let two runs without draining add the same
statements. What a name stands for among them is the same in every order if and only if it is not
ambiguous. After draining both builders can be finished or none, both snapshots have the same
statements, and one that looks up no ambiguous name has the same dependencies in both. -/
theorem order_matters_only_if_ambiguous (read : Sql.Reader) (dialect : Dialect)
    {calls others : List Call}
    (hcalls : .drain ∉ calls) (hothers : .drain ∉ others)
    (halike : ((new dialect read).run calls).Alike ((new dialect read).run others)) :
    let b := (new dialect read).run calls
    let c := (new dialect read).run others
    (∀ kinds near parts,
      (∀ ids : List ObjectId, ids.Perm (Statements.ids b.statements) →
        NameLookup.resolve? ids kinds near parts =
          NameLookup.resolve? (Statements.ids b.statements) kinds near parts) ↔
        ¬NameLookup.Ambiguous (Statements.ids b.statements) kinds near parts) ∧
    ((∃ snapshot, b.drain.finish = .ok snapshot) ↔ ∃ snapshot, c.drain.finish = .ok snapshot) ∧
    ∀ snapshot other, b.drain.finish = .ok snapshot → c.drain.finish = .ok other →
      ∀ s ∈ snapshot.statements, ∃ t ∈ other.statements, t.id = s.id ∧
        (s.Clear read dialect (Statements.ids snapshot.statements) →
          ∀ id, id ∈ t.dependencies ↔ id ∈ s.dependencies) := by
  intro b c
  have hb : b.Reachable := (Reachable.new dialect read).run calls
  have hc : c.Reachable := (Reachable.new dialect read).run others
  have hsettings := dialect_and_read_run dialect read calls
  have hsettings' := dialect_and_read_run dialect read others
  refine ⟨fun kinds near parts => NameLookup.resolve?_perm_iff, halike.exists_finish_iff hb hc,
    fun snapshot other hfinish hfinish' s hs => ?_⟩
  obtain ⟨f, hf, hstays⟩ := (fresh_run read dialect hcalls).exists_map_of_finish hb hfinish
  obtain ⟨g, hg, hstays'⟩ := (fresh_run read dialect hothers).exists_map_of_finish hc hfinish'
  rw [hf] at hs
  obtain ⟨s, hmem, rfl⟩ := List.mem_map.1 hs
  obtain ⟨t, ht, hmatches⟩ := halike.forth s hmem
  obtain ⟨hstay, hdependencies⟩ := hstays s hmem
  obtain ⟨hstay', hdependencies'⟩ := hstays' t ht
  refine ⟨g t, hg ▸ List.mem_map_of_mem ht, ?_, fun hclear id => ?_⟩
  · rw [hstay'.id, hstay.id, hmatches.id]
  · have hids : Statements.ids snapshot.statements = Statements.ids b.statements := by
      rw [hf, Statements.ids, List.map_map]
      exact List.map_congr_left fun s hs => (hstays s hs).1.id
    have hclear : s.Clear b.read b.dialect (Statements.ids b.statements) := by
      rw [hids] at hclear
      rw [show b.dialect = dialect from hsettings.1, show b.read = read from hsettings.2]
      simpa only [Statement.Clear, Statement.LooksUp, hstay.definition, hstay.id] using hclear
    rw [hdependencies, hdependencies']
    exact halike.implies_iff hb hc (hsettings'.1.trans hsettings.1.symm)
      (hsettings'.2.trans hsettings.2.symm) hmatches hclear

end Builder

namespace Builder.Overloads

/-- The schema. -/
def schema : ObjectId := ⟨.schema, ["a"]⟩

/-- The call that adds an overload of a function. -/
def overload (argument : String) : Call :=
  .add schema "f" (.function { arguments := [{ dataType := argument }] })

/-- A schema with two overloads of a function in some order, a table and a view. -/
def calls (first second query : String) : List Call :=
  [.add .database "a" (.schema {}), overload first, overload second, .add schema "t" (.table {}),
    .add schema "v" (.view { query })]

/-- The builder. -/
def builder (first second query : String) : Builder :=
  (new .postgres Sql.read).run (calls first second query)

/-- The snapshot that the builder is finished to. -/
def snapshot (first second query : String) : Snapshot :=
  let statements := (builder first second query).drain.linked
  ⟨.postgres, statements, Fingerprint.table statements⟩

/-- The view. -/
def view : ObjectId := ⟨.view, ["a", "v"]⟩

/-- A view that calls the function depends on the overload that was added first. -/
theorem overload_by_order :
    let query := "SELECT a.f(1)"
    (builder "int" "text" query).Alike (builder "text" "int" query) ∧
      ((builder "int" "text" query).drain.finish = .ok (snapshot "int" "text" query) ∧
        ∃ s ∈ (snapshot "int" "text" query).statements, s.id = view ∧
          s.dependencies = [.function "a" "f" ["int"]]) ∧
      (builder "text" "int" query).drain.finish = .ok (snapshot "text" "int" query) ∧
        ∃ s ∈ (snapshot "text" "int" query).statements, s.id = view ∧
          s.dependencies = [.function "a" "f" ["text"]] := by
  refine ⟨by decide +kernel, ⟨finish_eq_ok.2 ⟨rfl, by decide +kernel, rfl⟩, by decide +kernel⟩,
    finish_eq_ok.2 ⟨rfl, by decide +kernel, rfl⟩, by decide +kernel⟩

/-- The names that a view of the table looks up are not ambiguous. -/
theorem clear_of_table {s : Statement} (hid : s.id = view)
    (hdefinition : s.definition = .view { query := "SELECT * FROM t" }) :
    s.Clear Sql.read .postgres
      (Statements.ids (snapshot "int" "text" "SELECT * FROM t").statements) := by
  have hreferences : Sql.References.ofText Sql.read .postgres "SELECT * FROM t" =
      { relations := [["t"]], wildcards := [["t"]] } := by decide +kernel
  rintro kinds parts hlooks ⟨name, outer, schema, hparts, hhome, hcontested⟩
  rw [Statement.LooksUp, hdefinition] at hlooks
  rw [hid] at hhome
  obtain ⟨_, -, hname⟩ | ⟨_, path, hsql, rfl, hpath⟩ := hlooks
  · cases hname
  obtain rfl := Option.some.inj hsql
  rw [hreferences] at hpath
  obtain ⟨rfl, hpath⟩ | ⟨-, hpath⟩ := hpath
  · obtain rfl : path = ["t"] := by simpa using hpath
    obtain ⟨rfl, rfl⟩ := List.cons.inj hparts
    obtain rfl := Option.some.inj hhome
    refine NameLookup.not_contested_of_unique ?_ hcontested
    decide +kernel
  · cases hpath

/-- A view of the table depends on it in both orders. -/
theorem table_in_any_order :
    let query := "SELECT * FROM t"
    (builder "int" "text" query).Alike (builder "text" "int" query) ∧
      (builder "int" "text" query).drain.finish = .ok (snapshot "int" "text" query) ∧
      (builder "text" "int" query).drain.finish = .ok (snapshot "text" "int" query) ∧
      ∃ t ∈ (snapshot "text" "int" query).statements, t.id = view ∧
        .table "a" "t" ∈ t.dependencies := by
  intro query
  have halike : (builder "int" "text" query).Alike (builder "text" "int" query) := by decide +kernel
  have hfinish : (builder "int" "text" query).drain.finish = .ok (snapshot "int" "text" query) :=
    finish_eq_ok.2 ⟨rfl, by decide +kernel, rfl⟩
  have hfinish' : (builder "text" "int" query).drain.finish = .ok (snapshot "text" "int" query) :=
    finish_eq_ok.2 ⟨rfl, by decide +kernel, rfl⟩
  obtain ⟨s, hs, hid, hdefinition, htable⟩ : ∃ s ∈ (snapshot "int" "text" query).statements,
      s.id = view ∧ s.definition = .view { query } ∧ .table "a" "t" ∈ s.dependencies := by
    decide +kernel
  obtain ⟨-, -, hsame⟩ :=
    order_matters_only_if_ambiguous Sql.read .postgres (by decide) (by decide) halike
  obtain ⟨t, ht, htid, hdependencies⟩ := hsame _ _ hfinish hfinish' s hs
  exact ⟨halike, hfinish, hfinish', t, ht, htid.trans hid,
    (hdependencies (clear_of_table hid hdefinition) _).2 htable⟩

end Builder.Overloads

end SchemaMigration
