import Mathlib.Data.List.Induction
import SchemaMigration.Proofs.Snapshot.Analysis
import SchemaMigration.Proofs.Snapshot.NameLookup

/-!
# Dependencies of built snapshots

The dependencies of a statement come from four sides: they are stated, found by analysis, implied by
its definition, or the target of a foreign key. All of them end up as identities of statements that
are there, of others than the statement itself, each once (`Snapshot.Linked`), since names are
looked up among the statements and what was stated is checked in the end. Whatever was called, a
builder can be finished unless a task waits or something demanded is missing, and a finished
snapshot tells its dependencies the same way in both directions
(`Builder.dependencies_closed_and_inverted`).
-/

namespace SchemaMigration

/-! ## Adding dependencies -/

namespace Statement

variable {s : Statement} {dependency : ObjectId}

/-- Dependencies that are added come once. -/
theorem nodup_addDependencies (h : s.dependencies.Nodup) (added : List ObjectId) :
    (s.addDependencies added).dependencies.Nodup := by
  unfold addDependencies
  induction added generalizing s with
  | nil => exact h
  | cons first added ih =>
    refine ih ?_
    unfold addDependency
    split
    · exact h
    · next hnew =>
      simp only [Bool.or_eq_true, List.contains_iff_mem, not_or] at hnew
      exact h.append (List.nodup_singleton first) (List.disjoint_singleton.2 hnew.2)

/-- Adding dependencies leaves the stated ones alone. -/
theorem stated_addDependencies (added : List ObjectId) :
    (s.addDependencies added).stated = s.stated := by
  unfold addDependencies
  induction added generalizing s with
  | nil => rfl
  | cons first added ih =>
    rw [List.foldl_cons, ih]
    unfold addDependency
    split <;> rfl

/-- Adding dependencies list by list adds all of them. -/
theorem foldl_addDependencies {α : Type} (f : α → List ObjectId) (l : List α) :
    l.foldl (fun s a => s.addDependencies (f a)) s = s.addDependencies (l.flatMap f) := by
  unfold addDependencies
  rw [List.foldl_flatMap]

/-- What has been stated of a statement after something was stated. -/
theorem mem_stated_state {stated : ObjectId} :
    dependency ∈ (s.state stated).stated ↔ dependency ∈ s.stated ∨ dependency = stated := by
  unfold state
  split
  · next hknown =>
    refine ⟨.inl, ?_⟩
    rintro (hin | rfl)
    · exact hin
    · exact List.contains_iff_mem.1 hknown
  · simp

/-- A statement is a constraint that refers to a table. -/
def RefersTo (s : Statement) (table : ObjectId) : Prop :=
  ∃ definition key, s.definition = .constraint definition ∧ definition.references = some key ∧
    table = .table key.schema key.table

end Statement

/-! ## Looking up -/

namespace Dependency

variable {statements : List Statement} {s : Statement} {id : ObjectId}

/-- The columns of a table are statements. -/
theorem mem_of_mem_columns {table : ObjectId} (h : s ∈ Statements.columns statements table) :
    s ∈ statements := by
  have h := (List.mem_filter.1 h).1
  unfold Statements.children at h
  split at h
  · obtain ⟨_, -, hfound⟩ := List.mem_filterMap.1 h
    exact List.mem_of_find?_eq_some hfound
  · cases h

/-- The table or view that a name in a text of `owner` stands for. -/
def relation? (statements : List Statement) (owner : ObjectId) (path : List String) :
    Option ObjectId :=
  NameLookup.resolve? (Statements.ids statements) relationKinds owner.schemaName?
    (path.map unquoted)

/-- The function that a name in a text of `owner` stands for. -/
def function? (statements : List Statement) (owner : ObjectId) (path : List String) :
    Option ObjectId :=
  NameLookup.resolve? (Statements.ids statements) [.function] owner.schemaName?
    (path.map unquoted)

/-- What references stand for: tables, all columns of the tables that are selected as a whole, those
columns of tables that are named, and functions. -/
theorem mem_ofReferences_iff {owner : ObjectId} {references : Sql.References} :
    id ∈ ofReferences statements owner references ↔ id ≠ owner ∧
      ((∃ path ∈ references.relations, relation? statements owner path = some id) ∨
        (∃ table, (∃ path ∈ references.wildcards, relation? statements owner path = some table) ∧
          ∃ column ∈ Statements.columns statements table, column.id = id) ∨
        (∃ name ∈ references.columns, ∃ table,
          (∃ path ∈ references.relations, relation? statements owner path = some table) ∧
            ∃ column ∈ Statements.columns statements table,
              Text.sameIgnoringCase column.name name = true ∧ column.id = id) ∨
        ∃ path ∈ references.functions, function? statements owner path = some id) := by
  simp only [ofReferences, List.mem_eraseDups, List.mem_filter, List.mem_append, List.mem_filterMap,
    List.mem_flatMap, List.mem_map, decide_eq_true_eq, or_assoc, and_assoc]
  exact and_comm

/-- What references stand for are statements. -/
theorem mem_ids_of_ofReferences {owner : ObjectId} {references : Sql.References}
    (h : id ∈ ofReferences statements owner references) : id ∈ Statements.ids statements := by
  obtain ⟨-, ⟨_, -, hfound⟩ | ⟨_, -, column, hcolumn, rfl⟩ |
    ⟨_, -, _, -, column, hcolumn, -, rfl⟩ | ⟨_, -, hfound⟩⟩ := mem_ofReferences_iff.1 h
  · exact NameLookup.mem_of_resolve? hfound
  · exact List.mem_map_of_mem (mem_of_mem_columns hcolumn)
  · exact List.mem_map_of_mem (mem_of_mem_columns hcolumn)
  · exact NameLookup.mem_of_resolve? hfound

/-- The table of a foreign key. -/
theorem foreignTable?_eq_some : foreignTable? s.definition = some id ↔ s.RefersTo id := by
  unfold foreignTable? Statement.RefersTo
  cases s.definition with
  | constraint definition => simp [Option.map_eq_some_iff, eq_comm (a := id)]
  | _ => simp

/-- What a definition mentions are statements, but for the table of a foreign key. -/
theorem mem_ids_of_ofDefinition (h : id ∈ ofDefinition statements s) :
    id ∈ Statements.ids statements ∨ s.RefersTo id := by
  have hnamed : ∀ {kind : ObjectKind} {parts : List String},
      named? statements s kind parts = some id → id ∈ Statements.ids statements :=
    NameLookup.mem_of_resolve?
  have hcolumn : ∀ {table : ObjectId} {name : String},
      columnOf? statements table name = some id → id ∈ Statements.ids statements := by
    intro table name hfound
    unfold columnOf? at hfound
    dsimp only at hfound
    split at hfound
    · next hhas =>
      obtain ⟨t, ht, hid⟩ := List.any_eq_true.1 hhas
      rw [← Option.some.inj hfound, ← beq_iff_eq.1 hid]
      exact List.mem_map_of_mem ht
    · cases hfound
  have hfilterMap : ∀ {α : Type} {f : α → Option ObjectId} {l : List α},
      (∀ a, f a = some id → id ∈ Statements.ids statements) → id ∈ l.filterMap f →
        id ∈ Statements.ids statements := by
    intro α f l hf hin
    obtain ⟨a, -, hfound⟩ := List.mem_filterMap.1 hin
    exact hf a hfound
  have htypes : ∀ {α : Type} {g : α → String} {l : List α}
      {m : List String}, id ∈ l.filterMap (fun a => typeOf? statements s (g a)) ++
        m.filterMap (typeOf? statements s) → id ∈ Statements.ids statements := fun h =>
    (List.mem_append.1 h).elim (hfilterMap fun _ => hnamed) (hfilterMap fun _ => hnamed)
  unfold ofDefinition at h
  split at h
  · exact .inl ((List.mem_append.1 h).elim (fun h => hnamed (Option.mem_toList.1 h))
      (hfilterMap fun _ => hnamed))
  · next definition hdefinition =>
    rcases List.mem_append.1 h with h | h
    · split at h
      · exact .inl (hfilterMap (fun _ => hcolumn) h)
      · cases h
    · split at h
      · next key hkey =>
        rcases List.mem_append.1 h with h | h
        · exact .inl (hfilterMap (fun _ => hcolumn) h)
        · exact .inr ⟨definition, key, hdefinition, hkey, List.mem_singleton.1 h⟩
      · cases h
  · split at h
    · exact .inl (hfilterMap (fun _ => hcolumn) h)
    · cases h
  · split at h
    · exact .inl (hnamed (Option.mem_toList.1 h))
    · cases h
  · exact .inl (htypes h)
  · exact .inl (htypes h)
  · exact .inl (htypes h)
  · cases h

/-- A constraint mentions the table that it refers to. -/
theorem mem_ofDefinition_of_refersTo (h : s.RefersTo id) : id ∈ ofDefinition statements s := by
  obtain ⟨definition, key, hdefinition, hkey, rfl⟩ := h
  unfold ofDefinition
  rw [hdefinition]
  dsimp only
  rw [hkey]
  exact List.mem_append_right _ (List.mem_append_right _ (List.mem_singleton_self _))

end Dependency

/-! ## Linked snapshots -/

namespace Snapshot

/-- Statements depend on others that are there, on each once. -/
structure Linked (snapshot : Snapshot) : Prop where
  there : ∀ s ∈ snapshot.statements, ∀ dependency ∈ s.dependencies,
    snapshot.contains dependency = true
  apart : ∀ s ∈ snapshot.statements, s.id ∉ s.dependencies
  once : ∀ s ∈ snapshot.statements, s.dependencies.Nodup

variable {a b : Snapshot}

/-- Dependencies on statements that are there may be added. -/
theorem Linked.map {f : Statement → Statement} (added : Statement → List ObjectId) (ha : a.Linked)
    (hb : b.statements = a.statements.map f)
    (hf : ∀ s ∈ a.statements, (f s).id = s.id ∧
      (f s).dependencies = (s.addDependencies (added s)).dependencies)
    (hadded : ∀ s ∈ a.statements, ∀ id ∈ added s, a.contains id = true) : b.Linked := by
  have hthere : ∀ {id}, a.contains id = true → b.contains id = true := by
    intro id hid
    obtain ⟨s, hs, rfl⟩ := contains_iff_exists_mem.1 hid
    exact contains_iff_exists_mem.2 ⟨f s, hb ▸ List.mem_map_of_mem hs, (hf s hs).1⟩
  refine ⟨?_, ?_, ?_⟩
  all_goals
    intro t ht
    rw [hb] at ht
    obtain ⟨s, hs, rfl⟩ := List.mem_map.1 ht
    obtain ⟨hid, hdependencies⟩ := hf s hs
    rw [hdependencies]
  · intro dependency hin
    rcases Statement.mem_addDependencies.1 hin with hin | ⟨hin, -⟩
    · exact hthere (ha.there s hs dependency hin)
    · exact hthere (hadded s hs dependency hin)
  · rw [hid, Statement.mem_addDependencies]
    rintro (hin | ⟨-, hne⟩)
    · exact ha.apart s hs hin
    · exact hne rfl
  · exact Statement.nodup_addDependencies (ha.once s hs) _

/-- Linked statements stay so when other things about them change. -/
theorem Linked.keep {f : Statement → Statement} (ha : a.Linked)
    (hb : b.statements = a.statements.map f)
    (hf : ∀ s : Statement, (f s).id = s.id ∧ (f s).dependencies = s.dependencies) : b.Linked :=
  ha.map (fun _ => []) hb (fun s _ => hf s) fun _ _ _ h => absurd h List.not_mem_nil

end Snapshot

namespace Builder

variable {b next : Builder} {id : ObjectId}

/-- Changing other things about a statement leaves a builder linked. -/
theorem linked_of_modify {change : Statement → Statement} (hb : b.tree.Linked)
    (h : b.modify id change = .ok next)
    (hchange : ∀ s : Statement, (change s).id = s.id ∧ (change s).dependencies = s.dependencies) :
    next.tree.Linked := by
  obtain ⟨-, rfl⟩ := modify_eq_ok.1 h
  refine hb.keep rfl fun s => ?_
  split
  · exact hchange s
  · exact ⟨rfl, rfl⟩

/-- Adding a statement, which depends on nothing yet, leaves a builder linked. -/
theorem linked_of_add {parent : ObjectId} {name : String} {definition : Definition}
    (hb : b.tree.Linked) (h : b.add parent name definition = .ok (id, next)) :
    next.tree.Linked := by
  obtain ⟨-, -, -, -, rfl⟩ := add_eq_ok.1 h
  have hlisting : (Snapshot.mk b.dialect (Snapshot.listing b.statements parent id) []).Linked :=
    hb.keep rfl fun s => by split <;> exact ⟨rfl, rfl⟩
  refine ⟨?_, ?_, ?_⟩
  all_goals
    intro s hs
    rcases List.mem_append.1 hs with hs | hs
  · intro dependency hin
    obtain ⟨t, ht, hid⟩ := Snapshot.contains_iff_exists_mem.1 (hlisting.there s hs dependency hin)
    exact Snapshot.contains_iff_exists_mem.2 ⟨t, List.mem_append_left _ ht, hid⟩
  · rw [List.mem_singleton.1 hs]
    exact fun _ hin => absurd hin List.not_mem_nil
  · exact hlisting.apart s hs
  · rw [List.mem_singleton.1 hs]
    exact List.not_mem_nil
  · exact hlisting.once s hs
  · rw [List.mem_singleton.1 hs]
    exact List.nodup_nil

/-- Settling adds to each statement what the references that were found for it stand for. -/
theorem settled_eq_addDependencies (statements : List Statement)
    (finished : List (ObjectId × Sql.References)) (s : Statement) :
    settled statements finished s = s.addDependencies ((finished.filter (·.1 = s.id)).flatMap
      fun found => Dependency.ofReferences statements found.1 found.2) :=
  Statement.foldl_addDependencies _ _

/-- Analysis finds for a statement of which nothing is known what the text of its task refers to. -/
theorem mem_analysed_iff_of_task {s : Statement} {task : Task}
    (hdistinct : (b.tasks.map (·.id)).Nodup) (htask : task ∈ b.tasks) (hid : task.id = s.id)
    (hfree : s.dependencies = []) :
    id ∈ (b.analysed s).dependencies ↔
      id ∈ Dependency.ofReferences b.statements s.id (.ofText b.read b.dialect task.sql) := by
  rw [mem_analysed_iff hdistinct, hfree]
  constructor
  · rintro (hin | ⟨other, hother, hsame, hin⟩)
    · cases hin
    · rwa [List.inj_on_of_nodup_map hdistinct hother htask (hsame.trans hid.symm)] at hin
  · exact fun hin => .inr ⟨task, htask, hid, hin⟩

/-- The statements of a builder are always linked. -/
theorem Reachable.linked (h : b.Reachable) : b.tree.Linked := by
  induction h with
  | new dialect => constructor <;> simp [tree, Builder.new]
  | add _ added ih => exact linked_of_add ih added
  | setOwner _ set ih | setComment _ set ih => exact linked_of_modify ih set fun _ => ⟨rfl, rfl⟩
  | depend _ stated ih =>
    refine linked_of_modify ih stated fun s => ?_
    unfold Statement.state
    split <;> exact ⟨rfl, rfl⟩
  | @settle b finished _ ih =>
    refine ih.map (fun s =>
      ((finished.mergeSort fun a b => a.1.ble b.1).filter (·.1 = s.id)).flatMap fun found =>
        Dependency.ofReferences b.statements found.1 found.2)
      (statements_settle b finished) (fun s _ => ?_) fun s _ id hid => ?_
    · rw [settled_eq_addDependencies]
      exact ⟨(stays_addDependencies s _).id, rfl⟩
    · obtain ⟨found, -, hid⟩ := List.mem_flatMap.1 hid
      obtain ⟨t, ht, rfl⟩ := List.mem_map.1 (Dependency.mem_ids_of_ofReferences hid)
      exact Snapshot.contains_iff_exists_mem.2 ⟨t, ht, rfl⟩

/-! ## Stated dependencies -/

/-- One of some calls states a dependency, and is not refused when its turn comes. -/
def States (b : Builder) (calls : List Call) (id dependency : ObjectId) : Prop :=
  ∃ before rest, calls = before ++ .depend id dependency :: rest ∧
    ¬ (b.run before).Refuses (.depend id dependency)

/-- What calls state of which the last one is known. -/
theorem states_concat {calls : List Call} {call : Call} {dependency : ObjectId} :
    b.States (calls ++ [call]) id dependency ↔ b.States calls id dependency ∨
      call = .depend id dependency ∧ ¬ (b.run calls).Refuses call := by
  constructor
  · rintro ⟨before, rest, hsplit, hnot⟩
    rcases List.eq_nil_or_concat' rest with rfl | ⟨rest, last, rfl⟩
    · obtain ⟨rfl, heq⟩ := List.append_inj' hsplit rfl
      obtain rfl := (List.cons.inj heq).1
      exact .inr ⟨rfl, hnot⟩
    · rw [← List.cons_append, ← List.append_assoc] at hsplit
      exact .inl ⟨before, rest, (List.append_inj' hsplit rfl).1, hnot⟩
  · rintro (⟨before, rest, rfl, hnot⟩ | ⟨rfl, hnot⟩)
    · exact ⟨before, rest ++ [call], by simp, hnot⟩
    · exact ⟨calls, [], rfl, hnot⟩

/-- What a call does to the statements of a builder, as far as stated dependencies go. -/
theorem exists_statements_after (b : Builder) (call : Call) :
    ∃ f added, (b.after call).statements = b.statements.map f ++ added ∧
      (∀ t : Statement, (f t).id = t.id ∧ ∀ dependency, dependency ∈ (f t).stated ↔
        dependency ∈ t.stated ∨ call = .depend t.id dependency ∧ ¬ b.Refuses call) ∧
      ∀ s ∈ added, s.stated = [] ∧ b.tree.contains s.id = false ∧
        ∀ id dependency, call ≠ .depend id dependency := by
  -- Most calls change a statement, if any, without what is stated of it, and add nothing.
  have hkept : ∀ {f : Statement → Statement},
      (∀ id dependency, call = .depend id dependency → b.Refuses call) →
      (∀ t : Statement, (f t).id = t.id ∧ (f t).stated = t.stated) →
      ∀ t : Statement, (f t).id = t.id ∧ ∀ dependency, dependency ∈ (f t).stated ↔
        dependency ∈ t.stated ∨ call = .depend t.id dependency ∧ ¬ b.Refuses call := by
    intro f hcall hf t
    refine ⟨(hf t).1, fun dependency => ?_⟩
    rw [(hf t).2, or_iff_left fun h => h.2 (hcall _ _ h.1)]
  have hnone : ∀ s ∈ ([] : List Statement), s.stated = [] ∧ b.tree.contains s.id = false ∧
      ∀ id dependency, call ≠ .depend id dependency := fun _ h => absurd h List.not_mem_nil
  unfold after
  split
  · next next hnext =>
    have hnot : ¬ b.Refuses call := fun hrefuses => by
      obtain ⟨fault, hfault⟩ := perform_eq_error.2 hrefuses
      rw [hnext] at hfault
      cases hfault
    cases call with
    | add parent name definition =>
      obtain ⟨⟨id, _⟩, hadded, rfl⟩ := map_eq_ok.1 hnext
      obtain ⟨-, -, -, hfresh, rfl⟩ := add_eq_ok.1 hadded
      refine ⟨_, _, rfl, hkept (by simp) fun t => by split <;> exact ⟨rfl, rfl⟩, fun s hs => ?_⟩
      rw [List.mem_singleton.1 hs]
      exact ⟨rfl, hfresh, by simp⟩
    | setOwner | setComment =>
      obtain ⟨-, rfl⟩ := modify_eq_ok.1 hnext
      exact ⟨_, [], (List.append_nil _).symm,
        hkept (by simp) fun t => by split <;> exact ⟨rfl, rfl⟩, hnone⟩
    | depend id stated =>
      obtain ⟨-, rfl⟩ := modify_eq_ok.1 hnext
      refine ⟨_, [], (List.append_nil _).symm, fun t => ⟨?_, fun dependency => ?_⟩, hnone⟩
      · split
        · exact (stays_state t stated).id
        · rfl
      · split
        · next heq =>
          rw [Statement.mem_stated_state]
          simp [heq, hnot, eq_comm]
        · next hne =>
          refine (or_iff_left ?_).symm
          rintro ⟨heq, -⟩
          exact hne (Call.depend.inj heq).1.symm
    | drain =>
      obtain rfl := Except.ok.inj hnext
      refine ⟨_, [], (statements_settle b _).trans (List.append_nil _).symm,
        hkept (by simp) fun t => ?_, hnone⟩
      rw [settled_eq_addDependencies]
      exact ⟨(stays_addDependencies t _).id, Statement.stated_addDependencies _⟩
  · next fault hfault =>
    exact ⟨fun t => t, [], by simp, hkept (fun _ _ _ => perform_eq_error.1 ⟨fault, hfault⟩)
      fun _ => ⟨rfl, rfl⟩, hnone⟩

/-- No call takes a statement away. -/
theorem contains_after (call : Call) (h : b.tree.contains id = true) :
    (b.after call).tree.contains id = true := by
  obtain ⟨f, added, heq, hf, -⟩ := exists_statements_after b call
  obtain ⟨s, hs, rfl⟩ := Snapshot.contains_iff_exists_mem.1 h
  refine Snapshot.contains_iff_exists_mem.2 ⟨f s, ?_, (hf s).1⟩
  rw [show (b.after call).tree.statements = _ from heq]
  exact List.mem_append_left _ (List.mem_map_of_mem hs)

/-- No run takes a statement away. -/
theorem contains_run (calls : List Call) (h : b.tree.contains id = true) :
    (b.run calls).tree.contains id = true :=
  List.foldlRecOn (motive := fun b : Builder => b.tree.contains id = true) calls after h
    fun _ hb call _ => contains_after call hb

/-- What is stated of the statements of a builder is what calls stated. -/
theorem mem_stated_iff (read : Sql.Reader) (dialect : Dialect) {calls : List Call} {s : Statement}
    {dependency : ObjectId} (hs : s ∈ ((new dialect read).run calls).statements) :
    dependency ∈ s.stated ↔ (new dialect read).States calls s.id dependency := by
  induction calls using List.reverseRecOn generalizing s with
  | nil =>
    rw [List.mem_singleton.1 hs]
    refine iff_of_false List.not_mem_nil ?_
    rintro ⟨before, rest, hsplit, -⟩
    simp at hsplit
  | append_singleton calls call ih =>
    obtain ⟨f, added, heq, hf, hadded⟩ :=
      exists_statements_after ((new dialect read).run calls) call
    rw [run_append] at hs
    change s ∈ (((new dialect read).run calls).after call).statements at hs
    rw [heq, List.mem_append] at hs
    rw [states_concat]
    rcases hs with hs | hs
    · obtain ⟨t, ht, rfl⟩ := List.mem_map.1 hs
      rw [(hf t).1, (hf t).2, ih ht]
    · -- Nothing could be stated of a statement that was not there.
      obtain ⟨hstated, hfresh, hcall⟩ := hadded s hs
      rw [hstated]
      refine iff_of_false List.not_mem_nil ?_
      rintro (⟨before, rest, rfl, hnot⟩ | ⟨heq, -⟩)
      · rw [run_append, contains_run _ (Bool.not_eq_false _ ▸ hnot)] at hfresh
        cases hfresh
      · exact hcall _ _ heq

/-! ## Finishing -/

/-- What has to be there for a statement: what was stated of it, and the table that it refers to. -/
def Demands (s : Statement) (dependency : ObjectId) : Prop :=
  dependency ∈ s.stated ∨ s.RefersTo dependency

/-- Nothing is missing if all that statements demand is there. -/
theorem missing?_eq_none : b.missing? = none ↔
    ∀ s ∈ b.statements, ∀ dependency, Demands s dependency →
      b.tree.contains dependency = true := by
  simp only [missing?, List.findSome?_eq_none_iff, Option.map_eq_none_iff, List.find?_eq_none,
    List.mem_append, Option.mem_toList, Dependency.foreignTable?_eq_some, Bool.not_eq_true',
    Bool.not_eq_false]
  exact Iff.rfl

/-- A builder can be finished if no task waits and nothing is missing. -/
theorem finish_eq_ok {snapshot : Snapshot} : b.finish = .ok snapshot ↔
    b.tasks = [] ∧ b.missing? = none ∧
      snapshot = ⟨b.dialect, b.linked, Fingerprint.table b.linked⟩ := by
  unfold finish
  split
  · next htasks =>
    refine iff_of_false (by simp) ?_
    rintro ⟨hnil, -⟩
    exact htasks (by rw [hnil]; rfl)
  · next htasks =>
    have hnil : b.tasks = [] := List.eq_nil_of_length_eq_zero (Decidable.not_not.1 htasks)
    cases b.missing? with
    | some found => simp
    | none => simp [hnil, eq_comm]

/-- A builder cannot be finished while a task waits or something is missing. -/
theorem finish_eq_error : (∃ fault, b.finish = .error fault) ↔
    b.tasks ≠ [] ∨ ∃ s ∈ b.statements, ∃ dependency, Demands s dependency ∧
      b.tree.contains dependency = false := by
  have hok : (∃ fault, b.finish = .error fault) ↔ ¬ ∃ snapshot, b.finish = .ok snapshot := by
    cases b.finish <;> simp
  rw [hok]
  simp only [finish_eq_ok, exists_and_left, exists_eq, and_true, not_and_or, missing?_eq_none]
  push Not
  simp only [Bool.not_eq_true]

variable {snapshot : Snapshot}

/-- Finishing leaves a builder linked. -/
theorem linked_of_finish (h : b.tree.Linked) (hfinish : b.finish = .ok snapshot) :
    snapshot.Linked := by
  obtain ⟨-, hmissing, rfl⟩ := finish_eq_ok.1 hfinish
  refine h.map (fun s => s.stated ++ Dependency.ofDefinition b.statements s) rfl
    (fun s _ => ⟨(stays_addDependencies s _).id, rfl⟩) fun s hs id hid => ?_
  have hdemand := missing?_eq_none.1 hmissing s hs
  rcases List.mem_append.1 hid with hid | hid
  · exact hdemand id (.inl hid)
  · rcases Dependency.mem_ids_of_ofDefinition hid with hid | hid
    · obtain ⟨t, ht, rfl⟩ := List.mem_map.1 hid
      exact Snapshot.contains_iff_exists_mem.2 ⟨t, ht, rfl⟩
    · exact hdemand id (.inr hid)

end Builder

/-! ## Both directions -/

namespace Snapshot

variable {snapshot : Snapshot} {id : ObjectId}

/-- What one pass over the dependencies of all statements collects for an identity: whenever the
pass comes to the identity, the statement whose dependency it is. -/
def collected (snapshot : Snapshot) (id : ObjectId) : List ObjectId :=
  snapshot.statements.flatMap fun s => (s.dependencies.filter (· = id)).map fun _ => s.id

/-- In a linked snapshot the pass collects every dependent once. -/
theorem Linked.collected_eq (h : snapshot.Linked) (id : ObjectId) :
    snapshot.collected id = snapshot.dependents id := by
  have hone : ∀ s ∈ snapshot.statements, (s.dependencies.filter (· = id)).map (fun _ => s.id) =
      (if s.dependencies.contains id then some s.id else none).toList := by
    intro s hs
    rw [List.filter_eq]
    by_cases hin : id ∈ s.dependencies
    · simp [List.count_eq_one_of_mem (h.once s hs) hin, hin]
    · simp [List.count_eq_zero_of_not_mem hin, hin]
  rw [collected, dependents, List.flatMap_congr hone, ← List.filterMap_eq_flatMap_toList,
    ← List.filterMap_eq_map, List.filterMap_filter]
  rfl

/-- The dependents of an identity stand in the order of the statements. -/
theorem sublist_dependents (snapshot : Snapshot) (id : ObjectId) :
    (snapshot.dependents id).Sublist (snapshot.statements.map (·.id)) :=
  List.filter_sublist.map _

/-- The dependents of an identity are the statements that have it among their dependencies. -/
theorem WellFormed.mem_dependents_iff (h : snapshot.WellFormed) {dependent : ObjectId} :
    dependent ∈ snapshot.dependents id ↔
      ∃ s, snapshot.get? dependent = some s ∧ id ∈ s.dependencies := by
  simp only [dependents, List.mem_map, List.mem_filter, List.contains_iff_mem]
  constructor
  · rintro ⟨s, ⟨hs, hin⟩, rfl⟩
    exact ⟨s, h.get?_of_mem hs, hin⟩
  · rintro ⟨s, hs, hin⟩
    obtain ⟨hmem, rfl⟩ := get?_some hs
    exact ⟨s, ⟨hmem, hin⟩, rfl⟩

end Snapshot

namespace Builder

/-- **Dependencies are closed and told in both directions.** Whatever was called, a builder can be
finished exactly if no task waits and everything that calls stated, and every table that a
constraint refers to, is there. Then statements depend on others that are there, on each once; among
them are all that calls stated, but for the statement itself, and the table that a constraint refers
to; and what one pass over all dependencies collects for an identity are its dependents, which are
the statements that depend on it, in the order of the statements and each once. -/
theorem dependencies_closed_and_inverted (read : Sql.Reader) (dialect : Dialect)
    (calls : List Call) :
    let b := (new dialect read).run calls
    ((∃ fault, b.finish = .error fault) ↔
      b.tasks ≠ [] ∨ ∃ s ∈ b.statements, ∃ dependency,
        ((new dialect read).States calls s.id dependency ∨ s.RefersTo dependency) ∧
          b.tree.contains dependency = false) ∧
    ∀ snapshot, b.finish = .ok snapshot →
      snapshot.Linked ∧
      (∀ s ∈ snapshot.statements, ∀ dependency,
        ((new dialect read).States calls s.id dependency ∧ dependency ≠ s.id ∨
          s.RefersTo dependency) →
          dependency ∈ s.dependencies) ∧
      ∀ id, snapshot.collected id = snapshot.dependents id ∧
        (snapshot.dependents id).Sublist (snapshot.statements.map (·.id)) ∧
        (snapshot.dependents id).Nodup ∧
        ∀ dependent, dependent ∈ snapshot.dependents id ↔
          ∃ s, snapshot.get? dependent = some s ∧ id ∈ s.dependencies := by
  intro b
  have hreachable : b.Reachable := (Reachable.new dialect read).run calls
  constructor
  · rw [finish_eq_error]
    refine or_congr_right (exists_congr fun s => and_congr_right fun hs =>
      exists_congr fun dependency => and_congr_left fun _ => ?_)
    rw [Demands, mem_stated_iff read dialect hs]
  · intro snapshot hfinish
    have hlinked := linked_of_finish hreachable.linked hfinish
    have hwf := wellFormed_of_finish hreachable hfinish
    refine ⟨hlinked, fun s hs dependency hdemand => ?_, fun id => ⟨hlinked.collected_eq id,
      snapshot.sublist_dependents id, (snapshot.sublist_dependents id).nodup hwf.distinct,
      fun _ => hwf.mem_dependents_iff⟩⟩
    obtain ⟨-, -, rfl⟩ := finish_eq_ok.1 hfinish
    obtain ⟨t, ht, rfl⟩ := List.mem_map.1 hs
    obtain ⟨hid, -, -, hdefinition⟩ :=
      stays_addDependencies t (t.stated ++ Dependency.ofDefinition b.statements t)
    rw [Statement.RefersTo, hid, hdefinition] at hdemand
    rw [Statement.mem_addDependencies, List.mem_append]
    rcases hdemand with ⟨hstates, hne⟩ | hrefers
    · exact .inr ⟨.inl ((mem_stated_iff read dialect ht).2 hstates), hne⟩
    · refine .inr ⟨.inr (Dependency.mem_ofDefinition_of_refersTo hrefers), ?_⟩
      -- A constraint is no table.
      rintro rfl
      obtain ⟨definition, key, hconstraint, -, htable⟩ := hrefers
      have hkind := hreachable.typed t ht
      rw [hconstraint, Statement.kind, htable] at hkind
      cases hkind

end Builder

end SchemaMigration
