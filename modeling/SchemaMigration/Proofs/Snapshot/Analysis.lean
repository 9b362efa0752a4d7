import SchemaMigration.Proofs.Snapshot.Calls
import SchemaMigration.Proofs.Snapshot.Sides

/-!
# Analysis in any order

The waiting tasks of a builder may be run side by side, and then they finish in any order
(`Builder.Drain`). What they found is sorted by identity before any of it is added
(`ObjectId.ble_antisymm` says that this leaves one order), and no two tasks are of one statement, so
every order of finishing leaves the same builder (`Builder.drained_in_any_order`). Settling adds to
each statement what the tasks of its identity found (`Builder.statements_settle`).
-/

namespace SchemaMigration

/-! ## The order of identities -/

/-- Lists of texts are compared as lists are. -/
theorem Text.compareSegments_eq : ∀ as bs : List String,
    Text.compareSegments as bs = compare as bs
  | [], [] => rfl
  | [], _ :: _ => rfl
  | _ :: _, [] => rfl
  | a :: as, b :: bs => by
    rw [compareSegments, compareSegments_eq as bs]
    exact List.compareLex_cons_cons.symm

namespace ObjectId

/-- Identities are compared by the places of their kinds and then by their paths. -/
theorem compare_eq (a b : ObjectId) : ObjectId.compare a b =
    compareLex (compareOn fun id : ObjectId => id.kind.rank) (compareOn ObjectId.path) a b := by
  rw [ObjectId.compare, Text.compareSegments_eq]
  rfl

/-- An identity that does not come after a second one, which does not come after a third one, does
not come after the third one. -/
theorem ble_trans {a b c : ObjectId} (hab : a.ble b = true) (hbc : b.ble c = true) :
    a.ble c = true := by
  simp only [ObjectId.ble, compare_eq] at hab hbc ⊢
  exact Std.TransCmp.isLE_trans hab hbc

/-- One of two identities does not come after the other one. -/
theorem ble_total (a b : ObjectId) : (a.ble b || b.ble a) = true := by
  have hswap : ObjectId.compare b a = (ObjectId.compare a b).swap := by
    simp only [compare_eq]
    exact Std.OrientedCmp.eq_swap
  rw [ObjectId.ble, ObjectId.ble, hswap]
  cases ObjectId.compare a b <;> rfl

/-- Two identities of which neither comes after the other one are equal. -/
theorem ble_antisymm {a b : ObjectId} (hab : a.ble b = true) (hba : b.ble a = true) : a = b := by
  simp only [ObjectId.ble, compare_eq] at hab hba
  obtain ⟨hkind, hpath⟩ := compareLex_eq_eq.1 (Std.OrientedCmp.isLE_antisymm hab hba)
  exact ObjectId.eq_of_kind_path (ObjectKind.rank_injective (Std.LawfulEqCmp.eq_of_compare hkind))
    (Std.LawfulEqCmp.eq_of_compare hpath)

end ObjectId

/-- Elements with different identities are sorted by identity in one way. -/
theorem mergeSort_eq_of_perm {α : Type} {key : α → ObjectId} {l m : List α} (hperm : l.Perm m)
    (hdistinct : (l.map key).Nodup) :
    l.mergeSort (fun a b => (key a).ble (key b)) = m.mergeSort fun a b => (key a).ble (key b) := by
  have hsorted : ∀ l : List α,
      (l.mergeSort fun a b => (key a).ble (key b)).Pairwise fun a b => (key a).ble (key b) = true :=
    List.pairwise_mergeSort (fun _ _ _ => ObjectId.ble_trans) fun _ _ => ObjectId.ble_total _ _
  refine List.Perm.eq_of_pairwise (fun a b ha hb hab hba => ?_) (hsorted l) (hsorted m)
    ((List.mergeSort_perm l _).trans (hperm.trans (List.mergeSort_perm m _).symm))
  have ha : a ∈ l := (List.mergeSort_perm l _).mem_iff.1 ha
  have hb : b ∈ l := hperm.mem_iff.2 ((List.mergeSort_perm m _).mem_iff.1 hb)
  exact List.inj_on_of_nodup_map hdistinct ha hb (ObjectId.ble_antisymm hab hba)

/-- At most one element of a list has an identity if no two have the same one. -/
theorem filter_eq_toList_find? {α : Type} {key : α → ObjectId} {id : ObjectId} :
    ∀ {l : List α}, (l.map key).Nodup → l.filter (key · = id) = (l.find? (key · = id)).toList
  | [], _ => rfl
  | a :: l, hdistinct => by
    obtain ⟨hnot, hrest⟩ := List.nodup_cons.1 hdistinct
    by_cases heq : key a = id
    · have hnone : l.filter (key · = id) = [] := by
        refine List.filter_eq_nil_iff.2 fun b hb hid => hnot ?_
        rw [heq, ← of_decide_eq_true hid]
        exact List.mem_map_of_mem hb
      simp [heq, hnone]
    · simp only [heq, decide_false, Bool.false_eq_true, not_false_eq_true, List.filter_cons_of_neg,
        List.find?_cons_of_neg]
      exact filter_eq_toList_find? hrest

/-! ## What dependencies imply -/

/-- What a statement depends on after dependencies were added. -/
theorem Statement.mem_addDependencies {s : Statement} {dependency : ObjectId}
    {added : List ObjectId} :
    dependency ∈ (s.addDependencies added).dependencies ↔
      dependency ∈ s.dependencies ∨ dependency ∈ added ∧ dependency ≠ s.id := by
  unfold addDependencies
  induction added generalizing s with
  | nil => simp
  | cons first added ih =>
    have hone : dependency ∈ (s.addDependency first).dependencies ↔
        dependency ∈ s.dependencies ∨ dependency = first ∧ dependency ≠ s.id := by
      unfold addDependency
      split
      · next hknown =>
        simp only [Bool.or_eq_true, decide_eq_true_eq, List.contains_iff_mem] at hknown
        refine ⟨.inl, ?_⟩
        rintro (hin | ⟨rfl, hne⟩)
        · exact hin
        · exact hknown.resolve_left hne
      · next hnew =>
        simp only [Bool.or_eq_true, decide_eq_true_eq, not_or] at hnew
        simp only [List.mem_append, List.mem_singleton]
        exact or_congr_right ⟨fun h => ⟨h, h ▸ hnew.1⟩, And.left⟩
    have hid : (s.addDependency first).id = s.id := (Builder.stays_addDependencies s [first]).id
    rw [List.foldl_cons, ih, hone, hid, List.mem_cons, or_and_right, or_assoc]

/-- No statement refers to itself. -/
theorem Dependency.ne_of_mem_ofReferences {statements : List Statement} {owner id : ObjectId}
    {references : Sql.References} (h : id ∈ ofReferences statements owner references) :
    id ≠ owner := by
  unfold ofReferences at h
  exact of_decide_eq_true (List.mem_filter.1 (List.mem_eraseDups.1 h)).2

namespace Builder

variable {b : Builder}

/-! ## Settling -/

/-- Changing statements one after another changes each by what is said of its identity. -/
theorem foldl_modify {α : Type} (key : α → ObjectId) (change : α → Statement → Statement)
    (hchange : ∀ a s, (change a s).id = s.id) :
    ∀ (l : List α) (statements : List Statement),
      l.foldl (fun statements a => Statements.modify statements (key a) (change a)) statements =
        statements.map fun s => (l.filter (key · = s.id)).foldl (fun s a => change a s) s
  | [], statements => (List.map_id statements).symm
  | a :: l, statements => by
    rw [List.foldl_cons, foldl_modify key change hchange l, Statements.modify, List.map_map]
    refine List.map_congr_left fun s _ => ?_
    dsimp only [Function.comp_apply]
    by_cases heq : s.id = key a
    · rw [if_pos heq, hchange, List.filter_cons_of_pos (by simp [heq]), List.foldl_cons]
    · rw [if_neg heq, List.filter_cons_of_neg (by simpa using Ne.symm heq)]

/-- A statement with the dependencies that finished tasks of its identity imply. -/
def settled (statements : List Statement) (finished : List (ObjectId × Sql.References))
    (s : Statement) : Statement :=
  (finished.filter (·.1 = s.id)).foldl
    (fun s found => s.addDependencies (Dependency.ofReferences statements found.1 found.2)) s

/-- Settling adds to each statement what the tasks of its identity found. -/
theorem statements_settle (b : Builder) (finished : List (ObjectId × Sql.References)) :
    (b.settle finished).statements =
      b.statements.map (settled b.statements (finished.mergeSort fun a b => a.1.ble b.1)) :=
  foldl_modify Prod.fst
    (fun found s => s.addDependencies (Dependency.ofReferences b.statements found.1 found.2))
    (fun _ s => (stays_addDependencies s _).id) _ _

/-! ## Draining -/

/-- Analysis under way: the tasks that still run, and what the others found, in the order in which
they finished. -/
structure Drain where
  running : List Task
  finished : List (ObjectId × Sql.References) := []

namespace Drain

/-- Any task that runs may be the next one to finish. -/
inductive Step (b : Builder) : Drain → Drain → Prop
  | finish (before after : List Task) (task : Task) (finished : List (ObjectId × Sql.References)) :
    Step b ⟨before ++ task :: after, finished⟩ ⟨before ++ after, finished ++ [b.analyse task]⟩

/-- What analysis can come to after all waiting tasks were started. -/
def Reaches (b : Builder) (d : Drain) : Prop := Relation.ReflTransGen (Step b) ⟨b.tasks, []⟩ d

variable {d next : Drain}

/-- A task that finishes is not lost. -/
theorem Step.perm (h : Step b d next) :
    (next.finished ++ next.running.map b.analyse).Perm
      (d.finished ++ d.running.map b.analyse) := by
  obtain ⟨before, after, task, finished⟩ := h
  simp only [List.map_append, List.map_cons, List.append_assoc, List.singleton_append]
  exact List.Perm.append_left finished List.perm_middle.symm

/-- What has finished and what still runs are the waiting tasks, each once. -/
theorem Reaches.perm (h : Reaches b d) :
    (d.finished ++ d.running.map b.analyse).Perm (b.tasks.map b.analyse) := by
  induction h with
  | refl => exact .refl _
  | tail _ hstep ih => exact hstep.perm.trans ih

/-- Unless all tasks have finished, one of them can. -/
theorem exists_step (hrunning : d.running ≠ []) : ∃ next, Step b d next := by
  obtain ⟨running, finished⟩ := d
  cases running with
  | nil => exact absurd rfl hrunning
  | cons task rest => exact ⟨_, .finish [] rest task finished⟩

/-- Tasks may finish in any order. -/
theorem reaches_of_perm : ∀ {order running : List Task}
    {finished : List (ObjectId × Sql.References)}, order.Perm running →
      Relation.ReflTransGen (Step b) ⟨running, finished⟩ ⟨[], finished ++ order.map b.analyse⟩
  | [], running, finished, hperm => by
    obtain rfl := List.nil_perm.1 hperm
    rw [List.map_nil, List.append_nil]
  | task :: order, running, finished, hperm => by
    obtain ⟨before, after, rfl⟩ := List.append_of_mem (hperm.subset List.mem_cons_self)
    have hrest : order.Perm (before ++ after) :=
      List.Perm.cons_inv (hperm.trans List.perm_middle)
    have hrun : Relation.ReflTransGen (Step b)
        ⟨before ++ after, finished ++ [b.analyse task]⟩
        ⟨[], finished ++ [b.analyse task] ++ order.map b.analyse⟩ := reaches_of_perm hrest
    rw [List.append_assoc, List.singleton_append] at hrun
    exact .head (.finish before after task finished) hrun

end Drain

/-- The statement with the dependencies that its task implies, if one waits. -/
def analysed (b : Builder) (s : Statement) : Statement :=
  match b.tasks.find? (·.id = s.id) with
  | some task =>
    s.addDependencies
      (Dependency.ofReferences b.statements s.id (.ofText b.read b.dialect task.sql))
  | none => s

/-- Analysis leaves a statement where it is. -/
theorem stays_analysed (b : Builder) (s : Statement) : s.Stays (b.analysed s) := by
  rw [analysed]
  split
  · exact stays_addDependencies s _
  · exact ⟨rfl, rfl, rfl, rfl⟩

/-- Analysis finds for a statement what the texts of its tasks refer to, and forgets nothing. -/
theorem mem_analysed_iff {s : Statement} {id : ObjectId}
    (hdistinct : (b.tasks.map (·.id)).Nodup) :
    id ∈ (b.analysed s).dependencies ↔ id ∈ s.dependencies ∨
      ∃ task ∈ b.tasks, task.id = s.id ∧
        id ∈ Dependency.ofReferences b.statements s.id (.ofText b.read b.dialect task.sql) := by
  have htasks : ∀ task,
      task ∈ b.tasks ∧ task.id = s.id ↔ b.tasks.find? (·.id = s.id) = some task := by
    intro task
    rw [← Option.mem_toList, ← filter_eq_toList_find? hdistinct, List.mem_filter,
      decide_eq_true_eq]
  simp only [← and_assoc, htasks, analysed]
  cases b.tasks.find? (·.id = s.id) with
  | none => simp
  | some task =>
    simp only [Statement.mem_addDependencies, Option.some.injEq, exists_eq_left']
    exact or_congr_right ⟨And.left, fun hin => ⟨hin, Dependency.ne_of_mem_ofReferences hin⟩⟩

/-- Of tasks of different statements, each adds what it found to its own one. -/
theorem settled_eq_analysed (hdistinct : (b.tasks.map (·.id)).Nodup) (s : Statement) :
    settled b.statements ((b.tasks.map b.analyse).mergeSort fun a b => a.1.ble b.1) s =
      b.analysed s := by
  have hfound : ((b.tasks.map b.analyse).mergeSort fun a b => a.1.ble b.1).filter (·.1 = s.id) =
      ((b.tasks.find? (·.id = s.id)).map b.analyse).toList := by
    have hmap : (b.tasks.map b.analyse).filter (·.1 = s.id) =
        (b.tasks.filter (·.id = s.id)).map b.analyse := List.filter_map ..
    have hperm := (List.mergeSort_perm (b.tasks.map b.analyse) fun a b => a.1.ble b.1).filter
      (·.1 = s.id)
    rw [hmap, filter_eq_toList_find? hdistinct] at hperm
    cases hfind : b.tasks.find? (·.id = s.id) with
    | none =>
      rw [hfind] at hperm
      exact List.perm_nil.1 hperm
    | some task =>
      rw [hfind] at hperm
      exact List.perm_singleton.1 hperm
  rw [settled, hfound, analysed]
  cases hfind : b.tasks.find? (·.id = s.id) with
  | none => rfl
  | some task =>
    have hid : task.id = s.id := by simpa using List.find?_some hfind
    simp only [Option.map_some, Option.toList_some, List.foldl_cons, List.foldl_nil, analyse, hid]

/-- Draining adds to each statement what its own task implies. -/
theorem statements_drain (hdistinct : (b.tasks.map (·.id)).Nodup) :
    b.drain.statements = b.statements.map b.analysed := by
  rw [drain, statements_settle]
  exact List.map_congr_left fun s _ => settled_eq_analysed hdistinct s

/-- **Tasks may finish in any order.** Whatever was called before, analysis that was started can
always go on until all tasks have finished, and they may do so in every order. Then each task has
finished once, what they found leaves the builder that running them one after another leaves, in
which no task waits, and each statement has gained the dependencies that its own task implies, in
their order: it depends on what it depended on before and on what the text of its task refers to. -/
theorem drained_in_any_order (read : Sql.Reader) (dialect : Dialect) (calls : List Call) :
    let b := (new dialect read).run calls
    (∀ d, Drain.Reaches b d →
      (d.running ≠ [] → ∃ next, Drain.Step b d next) ∧
        d.finished.length + d.running.length = b.tasks.length ∧
        (d.running = [] →
          d.finished.Perm (b.tasks.map b.analyse) ∧ b.settle d.finished = b.drain)) ∧
    (∀ order : List Task, order.Perm b.tasks → Drain.Reaches b ⟨[], order.map b.analyse⟩) ∧
    b.drain.tasks = [] ∧ b.drain.statements = b.statements.map b.analysed ∧
    ∀ s ∈ b.statements, ∀ id, id ∈ (b.analysed s).dependencies ↔ id ∈ s.dependencies ∨
      ∃ task ∈ b.tasks, task.id = s.id ∧
        id ∈ Dependency.ofReferences b.statements s.id (.ofText read dialect task.sql) := by
  intro b
  have hdistinct : (b.tasks.map (·.id)).Nodup :=
    ((Reachable.new dialect read).run calls).queued.distinct
  refine ⟨fun d hd => ⟨Drain.exists_step, ?_, fun hdone => ?_⟩,
    fun order horder => Drain.reaches_of_perm horder, rfl, statements_drain hdistinct,
    fun s _ id => ?_⟩
  · simpa using hd.perm.length_eq
  · have hperm : d.finished.Perm (b.tasks.map b.analyse) := by simpa [hdone] using hd.perm
    have hkeys : (d.finished.map Prod.fst).Nodup := by
      refine (hperm.map Prod.fst).nodup_iff.2 ?_
      rwa [List.map_map]
    refine ⟨hperm, ?_⟩
    rw [drain, settle, settle, mergeSort_eq_of_perm hperm hkeys]
  · obtain ⟨hdialect, hread⟩ := dialect_and_read_run dialect read calls
    rw [mem_analysed_iff hdistinct, hread, hdialect]

end Builder

end SchemaMigration
