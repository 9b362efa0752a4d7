import SchemaMigration.Proofs.Snapshot.Fingerprint

/-!
# Calls of a builder

A builder is filled by calls, of which some are refused; a refused call leaves it as it was
(`Builder.after`). The places of its statements are told several times over: by the identities, by
the parents, by the lists of children, by the order of the statements and by the waiting tasks.
Whatever was called, all of these agree (`Builder.agreement_after_calls`).
-/

namespace SchemaMigration

/-- A definition is the view, or the routine in SQL, with a text that is analysed. -/
def Definition.Asks (definition : Definition) (sql : String) : Prop :=
  (∃ view, definition = .view view ∧ view.query = sql) ∨
    ∃ routine, (definition = .function routine ∨ definition = .procedure routine) ∧
      routine.body = sql ∧ ∃ language ∈ routine.language,
        Text.sameIgnoringCase language "sql" = true

/-- The text of a definition that is analysed. -/
theorem Definition.query?_eq_some {definition : Definition} {sql : String} :
    definition.query? = some sql ↔ definition.Asks sql := by
  have hroutine : ∀ routine : RoutineDefinition,
      (if (routine.language.map (Text.sameIgnoringCase · "sql")).getD false then
        some routine.body else none) = some sql ↔
      routine.body = sql ∧ ∃ language ∈ routine.language,
        Text.sameIgnoringCase language "sql" = true := by
    intro routine
    cases hlanguage : routine.language <;> simp [and_comm]
  cases definition with
  | view view => simp [query?, Asks]
  | function routine => simpa [query?, Asks] using hroutine routine
  | procedure routine => simpa [query?, Asks] using hroutine routine
  | _ => simp [query?, Asks]

namespace Builder

/-! ## Calls and runs -/

/-- A call that changes a builder. -/
inductive Call where
  | add (parent : ObjectId) (name : String) (definition : Definition)
  | setOwner (id : ObjectId) (owner : String)
  | setComment (id : ObjectId) (comment : String)
  | depend (id dependency : ObjectId)
  | drain
  deriving DecidableEq, Repr

/-- What a call makes of a builder. -/
def perform (b : Builder) : Call → Except MigrationError Builder
  | .add parent name definition => (b.add parent name definition).map (·.2)
  | .setOwner id owner => b.setOwner id owner
  | .setComment id comment => b.setComment id comment
  | .depend id dependency => b.depend id dependency
  | .drain => .ok b.drain

/-- A builder after a call. One that fails leaves it as it was. -/
def after (b : Builder) (call : Call) : Builder :=
  match b.perform call with
  | .ok next => next
  | .error _ => b

/-- A builder after some calls. -/
def run (b : Builder) (calls : List Call) : Builder := calls.foldl after b

/-- What a builder refuses: to add a statement whose parent is not there or may not own it, or whose
identity is taken, and to change a statement that is not there. -/
def Refuses (b : Builder) : Call → Prop
  | .add parent name definition =>
    b.tree.contains parent = false ∨ definition.kind.canBeUnder parent.kind = false ∨
      b.tree.contains (parent.child definition.kind (definition.identityName name)) = true
  | .setOwner id _ | .setComment id _ | .depend id _ => b.tree.contains id = false
  | .drain => False

variable {b next : Builder} {parent id : ObjectId} {name : String} {definition : Definition}

/-- Some calls after others are one run. -/
theorem run_append (b : Builder) (calls more : List Call) :
    b.run (calls ++ more) = (b.run calls).run more := List.foldl_append

/-- What adding a statement does, if it is not refused. -/
theorem add_eq_ok : b.add parent name definition = .ok (id, next) ↔
    id = parent.child definition.kind (definition.identityName name) ∧
      b.tree.contains parent = true ∧ definition.kind.canBeUnder parent.kind = true ∧
      b.tree.contains id = false ∧
      next = { b with
        statements := Snapshot.listing b.statements parent id ++
          [{ id, parent := some parent, definition }]
        tasks := b.tasks ++ definition.query?.toList.map (Task.mk id) } := by
  unfold add
  dsimp only
  cases hparent : b.get? parent with
  | none =>
    have hnot : b.tree.contains parent = false := Snapshot.not_contains_iff.2 hparent
    simp [hnot]
  | some p =>
    have hthere : b.tree.contains parent = true := Snapshot.contains_iff.2 ⟨p, hparent⟩
    have hkind : p.kind = parent.kind := congrArg ObjectId.kind (Snapshot.get?_some
      (show b.tree.get? parent = some p from hparent)).2
    dsimp only
    rw [hkind]
    cases hunder : definition.kind.canBeUnder parent.kind with
    | false => simp
    | true =>
      simp only [Bool.not_true, Bool.false_eq_true, if_false, hthere, true_and]
      change (if b.tree.contains
        (parent.child definition.kind (definition.identityName name)) = true then _ else _) = _ ↔ _
      cases hfresh : b.tree.contains
          (parent.child definition.kind (definition.identityName name)) with
      | true =>
        simp only [if_true, reduceCtorEq, false_iff]
        rintro ⟨rfl, hnot, -⟩
        rw [hfresh] at hnot
        cases hnot
      | false =>
        simp only [Bool.false_eq_true, if_false, Except.ok.injEq, Prod.mk.injEq]
        constructor
        · rintro ⟨rfl, rfl⟩
          exact ⟨rfl, hfresh, rfl⟩
        · rintro ⟨rfl, -, rfl⟩
          exact ⟨rfl, rfl⟩

/-- What changing a statement does, if it is not refused. -/
theorem modify_eq_ok {change : Statement → Statement} : b.modify id change = .ok next ↔
    b.tree.contains id = true ∧
      next = { b with statements := Statements.modify b.statements id change } := by
  unfold modify
  change (if b.tree.contains id = true then _ else _) = _ ↔ _
  cases b.tree.contains id <;> simp [eq_comm]

/-- A call fails if and only if it is refused. -/
theorem perform_eq_error {call : Call} :
    (∃ fault, b.perform call = .error fault) ↔ b.Refuses call := by
  have hmodify : ∀ (id : ObjectId) (change : Statement → Statement),
      (∃ fault, b.modify id change = .error fault) ↔ b.tree.contains id = false := by
    intro id change
    unfold modify
    change (∃ fault, (if b.tree.contains id = true then _ else _) = _) ↔ _
    cases b.tree.contains id <;> simp
  cases call with
  | add parent name definition =>
    rw [perform, Refuses]
    cases hadd : b.add parent name definition with
    | ok found =>
      obtain ⟨id, next⟩ := found
      obtain ⟨rfl, hthere, hunder, hfresh, -⟩ := add_eq_ok.1 hadd
      simp [Except.map, hthere, hunder, hfresh]
    | error fault =>
      refine iff_of_true ⟨fault, rfl⟩ ?_
      by_contra hnot
      simp only [not_or, Bool.not_eq_false, Bool.not_eq_true] at hnot
      rw [add_eq_ok.2 ⟨rfl, hnot.1, hnot.2.1, hnot.2.2, rfl⟩] at hadd
      cases hadd
  | setOwner id owner => exact hmodify id _
  | setComment id comment => exact hmodify id _
  | depend id dependency => exact hmodify id _
  | drain => simp [perform, Refuses]

/-- Calls lead on from builders that calls lead to. -/
theorem Reachable.after (h : b.Reachable) (call : Call) : (b.after call).Reachable := by
  unfold Builder.after
  split
  · next next hnext =>
    cases call with
    | add parent name definition =>
      obtain ⟨⟨id, _⟩, hadded, rfl⟩ := map_eq_ok.1 hnext
      exact h.add hadded
    | setOwner id owner => exact h.setOwner hnext
    | setComment id comment => exact h.setComment hnext
    | depend id dependency => exact h.depend hnext
    | drain => exact Except.ok.inj hnext ▸ h.settle _
  · exact h

/-- Runs lead on from builders that calls lead to. -/
theorem Reachable.run (h : b.Reachable) (calls : List Call) : (b.run calls).Reachable :=
  List.foldlRecOn calls Builder.after h fun _ hb call _ => hb.after call

/-- Calls keep the dialect and the reader. -/
theorem dialect_and_read_run (dialect : Dialect) (read : Sql.Reader) (calls : List Call) :
    ((new dialect read).run calls).dialect = dialect ∧
      ((new dialect read).run calls).read = read := by
  refine List.foldlRecOn (motive := fun b : Builder => b.dialect = dialect ∧ b.read = read) calls
    Builder.after ⟨rfl, rfl⟩ fun b hb call _ => ?_
  unfold Builder.after
  split
  · next next hnext =>
    cases call with
    | add =>
      obtain ⟨⟨_, _⟩, hadded, rfl⟩ := map_eq_ok.1 hnext
      obtain ⟨-, -, -, -, rfl⟩ := add_eq_ok.1 hadded
      exact hb
    | setOwner | setComment | depend =>
      obtain ⟨-, rfl⟩ := modify_eq_ok.1 hnext
      exact hb
    | drain =>
      obtain rfl := Except.ok.inj hnext
      exact hb
  · exact hb

/-! ## Places -/

/-- The first statement is the database. -/
def Headed (snapshot : Snapshot) : Prop :=
  ∃ root rest, snapshot.statements = root :: rest ∧ root.id = .database ∧
    root.definition = .database ∧ root.parent = none

/-- The identity of a statement is that of its parent with the name that its definition makes. -/
def Named (snapshot : Snapshot) : Prop :=
  ∀ s ∈ snapshot.statements, ∀ p ∈ s.parent,
    ∃ name, s.id = p.child s.definition.kind (s.definition.identityName name)

/-- Adding a statement leaves the database in front. -/
theorem headed_of_add (hb : Headed b.tree) (h : b.add parent name definition = .ok (id, next)) :
    Headed next.tree := by
  obtain ⟨-, -, -, -, rfl⟩ := add_eq_ok.1 h
  obtain ⟨root, rest, hsplit, hid, hdefinition, hparent⟩ := hb
  obtain ⟨_, hrest⟩ : ∃ listed, Snapshot.listing b.statements parent id =
      (if root.id = parent then { root with children := root.children ++ [id] } else root) ::
        listed := by
    rw [show b.statements = root :: rest from hsplit]
    exact ⟨_, rfl⟩
  refine ⟨_, _, congrArg (· ++ _) hrest, ?_⟩
  split <;> exact ⟨hid, hdefinition, hparent⟩

/-- In a builder the database is always the first statement. -/
theorem Reachable.headed (h : b.Reachable) : Headed b.tree := by
  refine h.induct ?_ ⟨_, _, rfl, rfl, rfl, rfl⟩ headed_of_add
  rintro a b f ⟨root, rest, hsplit, hid, hdefinition, hparent⟩ hb hf
  have hroot := hf root (by simp [hsplit])
  exact ⟨f root, rest.map f, by rw [hb, hsplit, List.map_cons], hroot.id.trans hid,
    hroot.definition.trans hdefinition, hroot.parent.trans hparent⟩

/-- Adding a statement names it after its definition. -/
theorem named_of_add (hb : Named b.tree) (h : b.add parent name definition = .ok (id, next)) :
    Named next.tree := by
  obtain ⟨rfl, -, -, -, rfl⟩ := add_eq_ok.1 h
  intro s hs p hp
  rcases List.mem_append.1 hs with hs | hs
  · obtain ⟨t, ht, rfl⟩ := List.mem_map.1 hs
    have hnamed := hb t ht p
    split at hp <;> split <;> exact hnamed hp
  · obtain rfl := List.mem_singleton.1 hs
    obtain rfl := Option.some.inj hp
    exact ⟨name, rfl⟩

/-- In a builder identities are always named after definitions. -/
theorem Reachable.named (h : b.Reachable) : Named b.tree := by
  refine h.induct ?_ (by simp [Named, tree, Builder.new]) named_of_add
  intro a b f ha hb hf s hs p hp
  rw [hb] at hs
  obtain ⟨t, ht, rfl⟩ := List.mem_map.1 hs
  have hstays := hf t ht
  rw [hstays.parent] at hp
  rw [hstays.id, hstays.definition]
  exact ha t ht p hp

/-! ## Tasks -/

/-- Stating a dependency leaves the place of a statement alone. -/
theorem stays_state (s : Statement) (dependency : ObjectId) : s.Stays (s.state dependency) := by
  unfold Statement.state
  split <;> exact ⟨rfl, rfl, rfl, rfl⟩

/-- The waiting tasks are of different statements, whose texts they analyse. -/
structure Queued (b : Builder) : Prop where
  distinct : (b.tasks.map (·.id)).Nodup
  asked : ∀ task ∈ b.tasks, ∃ s ∈ b.statements, s.id = task.id ∧ s.definition.Asks task.sql

/-- Changing a statement without its place leaves the waiting tasks alone. -/
theorem Queued.modify {change : Statement → Statement} (hb : b.Queued)
    (h : b.modify id change = .ok next) (hchange : ∀ s : Statement, s.Stays (change s)) :
    next.Queued := by
  obtain ⟨-, rfl⟩ := modify_eq_ok.1 h
  obtain ⟨f, hf, hstays⟩ : ∃ f, Statements.modify b.statements id change = b.statements.map f ∧
      ∀ s : Statement, s.Stays (f s) := exists_map_of_modify hchange
  refine ⟨hb.distinct, fun task htask => ?_⟩
  obtain ⟨s, hs, hid, hasks⟩ := hb.asked task htask
  refine ⟨f s, ?_, (hstays s).id.trans hid, (hstays s).definition.symm ▸ hasks⟩
  dsimp only
  rw [hf]
  exact List.mem_map_of_mem hs

/-- Adding a statement queues a task for it alone, if it has a text that is analysed. -/
theorem Queued.add (hb : b.Queued) (h : b.add parent name definition = .ok (id, next)) :
    next.Queued := by
  obtain ⟨-, -, -, hfresh, rfl⟩ := add_eq_ok.1 h
  constructor
  · dsimp only
    rw [List.map_append, List.map_map, show (Task.id ∘ Task.mk id) = fun _ => id from rfl]
    refine hb.distinct.append ?_ fun other hother hin => ?_
    · cases definition.query? <;> simp
    · -- The statement of a task that waits is there, that of the new one was not.
      obtain ⟨task, htask, rfl⟩ := List.mem_map.1 hother
      obtain ⟨s, hs, hid, -⟩ := hb.asked task htask
      obtain ⟨_, -, hsame⟩ := List.mem_map.1 hin
      rw [hsame, Snapshot.contains_iff_exists_mem.2 ⟨s, hs, hid⟩] at hfresh
      cases hfresh
  · intro task htask
    rcases List.mem_append.1 htask with htask | htask
    · obtain ⟨s, hs, hid, hasks⟩ := hb.asked task htask
      refine ⟨_, List.mem_append_left _ (List.mem_map_of_mem hs), ?_⟩
      split <;> exact ⟨hid, hasks⟩
    · obtain ⟨sql, hsql, rfl⟩ := List.mem_map.1 htask
      exact ⟨_, List.mem_append_right _ (List.mem_singleton_self _), rfl,
        Definition.query?_eq_some.1 (Option.mem_toList.1 hsql)⟩

/-- The waiting tasks of a builder are always of different statements that have them. -/
theorem Reachable.queued (h : b.Reachable) : b.Queued := by
  induction h with
  | new dialect => exact ⟨List.nodup_nil, fun _ h => absurd h List.not_mem_nil⟩
  | add _ added ih => exact ih.add added
  | setOwner _ set ih | setComment _ set ih => exact ih.modify set fun _ => ⟨rfl, rfl, rfl, rfl⟩
  | depend _ stated ih => exact ih.modify stated fun s => stays_state s _
  | settle => exact ⟨List.nodup_nil, fun _ h => absurd h List.not_mem_nil⟩

/-! ## Agreement -/

/-- What a builder says about the places of its statements agrees. -/
structure Agrees (b : Builder) : Prop where
  /-- No identity has two statements. -/
  distinct : (b.statements.map (·.id)).Nodup
  /-- The first statement is the database, which alone has no parent. -/
  rooted : ∃ root rest, b.statements = root :: rest ∧ root.id = .database ∧
    root.definition = .database ∧ root.parent = none ∧ ∀ s ∈ rest, ∃ p, s.parent = some p
  /-- A parent was added before its child, may own it and lists it once; its path and the name that
  the definition of the child makes are the path of the child, whose kind is that of its
  definition. -/
  owned : ∀ before s rest, b.statements = before ++ s :: rest → ∀ p ∈ s.parent,
    (∃ owner ∈ before, owner.id = p ∧
      s.definition.kind.canBeUnder owner.definition.kind = true ∧
      owner.children.count s.id = 1) ∧
    ∃ name, s.id = p.child s.definition.kind (s.definition.identityName name)
  /-- What a statement lists is there and has it for its parent. -/
  listed : ∀ s ∈ b.statements, ∀ c ∈ s.children, ∃ t ∈ b.statements, t.id = c ∧
    t.parent = some s.id
  /-- The waiting tasks are of different views and SQL routines that are there. -/
  queued : b.Queued

/-- Calls lead to builders that agree. -/
theorem Reachable.agrees (h : b.Reachable) : b.Agrees := by
  have hwf := h.wellFormed
  refine ⟨hwf.distinct, ?_, ?_, hwf.listed, h.queued⟩
  · obtain ⟨root, rest, hsplit, hid, hdefinition, hparent⟩ := h.headed
    have hsplit : b.statements = root :: rest := hsplit
    refine ⟨root, rest, hsplit, hid, hdefinition, hparent, fun s hs => ?_⟩
    cases hp : s.parent with
    | some p => exact ⟨p, rfl⟩
    | none =>
      -- Only the database has no parent, and it is not there a second time.
      have hs' : s ∈ b.tree.statements :=
        (show b.tree.statements = root :: rest from hsplit) ▸ List.mem_cons_of_mem root hs
      have hdistinct := hwf.distinct
      rw [show b.tree.statements = root :: rest from hsplit, List.map_cons, hid,
        ← hwf.orphan s hs' hp] at hdistinct
      exact absurd (List.mem_map_of_mem hs) (List.nodup_cons.1 hdistinct).1
  · intro before s rest hsplit p hp
    have hsplit' : b.tree.statements = before ++ s :: rest := hsplit
    have hs : s ∈ b.tree.statements := by simp [hsplit']
    obtain ⟨hunder, -, owner, howner, rfl, hin⟩ := hwf.owned s hs p hp
    refine ⟨⟨owner, ?_, rfl, ?_, ?_⟩, h.named s hs _ hp⟩
    · have hfirst := h.parentsFirst
      rw [Snapshot.ParentsFirst, hsplit', List.pairwise_append] at hfirst
      rw [hsplit', List.mem_append, List.mem_cons] at howner
      rcases howner with howner | rfl | hrest
      · exact howner
      · exact absurd rfl
          (hwf.ne_of_parent? (Snapshot.parent?_eq_some.2 ⟨_, hwf.get?_of_mem hs, hp⟩))
      · exact absurd hin (List.rel_of_pairwise_cons hfirst.2.1 hrest)
    · rw [h.typed s hs, h.typed owner howner]
      exact hunder
    · exact List.count_eq_one_of_mem (hwf.siblings owner howner) hin

/-- **Builders stay in shape.** After any calls, refused or not, what a builder says about the
places of its statements agrees. A further call either fails, which it does exactly if it is one of
those that a builder refuses, and then the builder stays what it was, or goes through. -/
theorem agreement_after_calls (read : Sql.Reader) (dialect : Dialect) (calls : List Call) :
    ((new dialect read).run calls).Agrees ∧
      ∀ call, let b := (new dialect read).run calls
        b.Refuses call ∧ (∃ fault, b.perform call = .error fault) ∧ b.after call = b ∨
          ¬ b.Refuses call ∧ b.perform call = .ok (b.after call) := by
  have hreachable : ((new dialect read).run calls).Reachable :=
    (Reachable.new dialect read).run calls
  refine ⟨hreachable.agrees, fun call => ?_⟩
  dsimp only
  cases hperform : ((new dialect read).run calls).perform call with
  | ok next =>
    refine .inr ⟨fun hrefuses => ?_, by rw [after, hperform]⟩
    obtain ⟨fault, hfault⟩ := perform_eq_error.2 hrefuses
    rw [hperform] at hfault
    cases hfault
  | error fault =>
    exact .inl ⟨perform_eq_error.1 ⟨fault, hperform⟩, ⟨fault, rfl⟩, by rw [after, hperform]⟩

end Builder

end SchemaMigration
