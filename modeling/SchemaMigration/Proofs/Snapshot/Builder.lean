import SchemaMigration.Proofs.Snapshot.Tree
import SchemaMigration.Proofs.Success
import SchemaMigration.Snapshot.Document

/-!
# What is built is a tree

A builder starts with the database and adds statements under others, so its statements always form a
tree (`Builder.Reachable.wellFormed`): adding checks that the parent is there and may own what is
added, and that the identity is new, while everything else leaves the places of the statements
alone (`Statement.Stays`). The identity of a statement takes its kind from the definition
(`Builder.Reachable.typed`). So every snapshot that is finished is well-formed and typed
(`Builder.wellFormed_of_finish`, `Builder.typed_of_finish`), and so is every one that is read from a
document (`Snapshot.wellFormed_of_ofText`, `Snapshot.typed_of_ofText`).
-/

namespace SchemaMigration

/-- A statement has the place and the definition of another one. -/
structure Statement.Stays (s t : Statement) : Prop where
  id : t.id = s.id
  parent : t.parent = s.parent
  children : t.children = s.children
  definition : t.definition = s.definition

/-! ## Trees of statements -/

namespace Snapshot

variable {a b : Snapshot}

/-- Statements in the same places form a tree as well. -/
theorem WellFormed.map {f : Statement → Statement} (ha : a.WellFormed)
    (hb : b.statements = a.statements.map f)
    (hf : ∀ s ∈ a.statements, s.Stays (f s)) : b.WellFormed := by
  have hids : b.statements.map (·.id) = a.statements.map (·.id) := by
    rw [hb, List.map_map]
    exact List.map_congr_left fun s hs => (hf s hs).id
  have hmem : ∀ {s}, s ∈ a.statements → f s ∈ b.statements := fun hs => by
    rw [hb]
    exact List.mem_map_of_mem hs
  refine ⟨hids ▸ ha.distinct, ?_, ?_, ?_, ?_, ?_⟩
  · obtain ⟨s, hs, hid⟩ := contains_iff_exists_mem.1 ha.rooted
    exact contains_iff_exists_mem.2 ⟨f s, hmem hs, (hf s hs).id.trans hid⟩
  all_goals
    intro t ht
    rw [hb] at ht
    obtain ⟨s, hs, rfl⟩ := List.mem_map.1 ht
    obtain ⟨hid, hparent, hchildren, -⟩ := hf s hs
  · rw [hid, hparent]
    exact ha.orphan s hs
  · intro p hp
    rw [hparent] at hp
    obtain ⟨hunder, hchild, owner, howner, rfl, hin⟩ := ha.owned s hs p hp
    rw [Statement.kind, hid]
    obtain ⟨hownerId, -, hownerChildren, -⟩ := hf owner howner
    exact ⟨hunder, hchild, f owner, hmem howner, hownerId, hownerChildren.symm ▸ hin⟩
  · rw [hid, hchildren]
    intro c hc
    obtain ⟨t, ht, rfl, hparent⟩ := ha.listed s hs c hc
    obtain ⟨htid, htparent, -⟩ := hf t ht
    exact ⟨f t, hmem ht, htid, htparent.trans hparent⟩
  · rw [hchildren]
    exact ha.siblings s hs

/-- Statements with the same definitions are of the same kinds. -/
theorem Typed.map {f : Statement → Statement} (ha : a.Typed)
    (hb : b.statements = a.statements.map f) (hf : ∀ s ∈ a.statements, s.Stays (f s)) :
    b.Typed := by
  intro t ht
  rw [hb] at ht
  obtain ⟨s, hs, rfl⟩ := List.mem_map.1 ht
  rw [(hf s hs).definition, ha s hs, Statement.kind, Statement.kind, (hf s hs).id]

/-- Statements of which one lists a child more. -/
def listing (statements : List Statement) (parent child : ObjectId) : List Statement :=
  Statements.modify statements parent fun p => { p with children := p.children ++ [child] }

section
variable {statements : List Statement} {parent child : ObjectId} {s : Statement}

/-- Listing a child leaves the identities alone. -/
theorem map_id_listing :
    (listing statements parent child).map (·.id) = statements.map (·.id) := by
  rw [listing, Statements.modify, List.map_map]
  refine List.map_congr_left fun s _ => ?_
  dsimp only [Function.comp_apply]
  split <;> rfl

/-- A statement keeps its place, and its children, when one lists a child more. -/
theorem exists_mem_listing (hs : s ∈ statements) :
    ∃ t ∈ listing statements parent child, t.id = s.id ∧ t.parent = s.parent ∧
      s.children ⊆ t.children ∧ (s.id = parent → child ∈ t.children) := by
  refine ⟨_, List.mem_map_of_mem hs, ?_⟩
  split
  · exact ⟨rfl, rfl, List.subset_append_left _ _,
      fun _ => List.mem_append_right _ (List.mem_singleton_self child)⟩
  · next hid => exact ⟨rfl, rfl, List.Subset.refl _, fun heq => absurd heq hid⟩

/-- A statement was there before one lists a child more, with the same children or all but that
one. -/
theorem exists_of_mem_listing (hs : s ∈ listing statements parent child) :
    ∃ t ∈ statements, t.id = s.id ∧ t.parent = s.parent ∧
      (s.children = t.children ∨ t.id = parent ∧ s.children = t.children ++ [child]) := by
  obtain ⟨t, ht, rfl⟩ := List.mem_map.1 hs
  refine ⟨t, ht, ?_⟩
  split
  · next hid => exact ⟨rfl, rfl, .inr ⟨hid, rfl⟩⟩
  · exact ⟨rfl, rfl, .inl rfl⟩

end

/-- A new statement under a parent that may own it and that lists it leaves a tree. -/
theorem WellFormed.append {t : Statement} {parent : ObjectId} (ha : a.WellFormed)
    (hb : b.statements = listing a.statements parent t.id ++ [t])
    (hparent : t.parent = some parent) (hthere : a.contains parent = true)
    (hunder : t.kind.canBeUnder parent.kind = true) (hchild : t.id = parent.child t.kind t.id.name)
    (hchildren : t.children = []) (hfresh : a.contains t.id = false) : b.WellFormed := by
  have hmem : ∀ {s}, s ∈ b.statements ↔ s ∈ listing a.statements parent t.id ∨ s = t := by
    intro s
    rw [hb, List.mem_append, List.mem_singleton]
  have hnot : ∀ {s}, s ∈ a.statements → s.id ≠ t.id := by
    intro s hs heq
    rw [contains_iff_exists_mem.2 ⟨s, hs, heq⟩] at hfresh
    cases hfresh
  refine ⟨?_, ?_, ?_, ?_, ?_, ?_⟩
  · rw [hb, List.map_append, map_id_listing]
    refine ha.distinct.append (List.nodup_singleton _) (List.disjoint_singleton.2 fun hin => ?_)
    obtain ⟨s, hs, hid⟩ := List.mem_map.1 hin
    exact hnot hs hid
  · obtain ⟨s, hs, hid⟩ := contains_iff_exists_mem.1 ha.rooted
    obtain ⟨u, hu, huid, -⟩ := exists_mem_listing hs
    exact contains_iff_exists_mem.2 ⟨u, hmem.2 (.inl hu), huid.trans hid⟩
  all_goals
    intro u hu
    rcases hmem.1 hu with hu | rfl
  · obtain ⟨s, hs, hid, hsparent, -⟩ := exists_of_mem_listing hu
    rw [← hid, ← hsparent]
    exact ha.orphan s hs
  · intro hnone
    rw [hnone] at hparent
    cases hparent
  · intro p hp
    obtain ⟨s, hs, hid, hsparent, -⟩ := exists_of_mem_listing hu
    obtain ⟨hunder, hchild, owner, howner, rfl, hin⟩ := ha.owned s hs p (hsparent ▸ hp)
    obtain ⟨v, hv, hvid, -, hvchildren, -⟩ := exists_mem_listing howner
    rw [Statement.kind, ← hid]
    exact ⟨hunder, hchild, v, hmem.2 (.inl hv), hvid, hvchildren hin⟩
  · intro p hp
    obtain rfl := Option.some.inj (hparent.symm.trans hp)
    obtain ⟨owner, howner, hid⟩ := contains_iff_exists_mem.1 hthere
    obtain ⟨v, hv, hvid, -, -, hin⟩ := exists_mem_listing howner
    exact ⟨hunder, hchild, v, hmem.2 (.inl hv), hvid.trans hid, hin hid⟩
  · intro c hc
    obtain ⟨s, hs, hid, -, hcases⟩ := exists_of_mem_listing hu
    have hold : c ∈ s.children → ∃ v ∈ b.statements, v.id = c ∧ v.parent = some u.id := by
      intro hc
      obtain ⟨w, hw, rfl, hwparent⟩ := ha.listed s hs c hc
      obtain ⟨v, hv, hvid, hvparent, -⟩ := exists_mem_listing hw
      exact ⟨v, hmem.2 (.inl hv), hvid, by rw [hvparent, hwparent, hid]⟩
    rcases hcases with heq | ⟨hsid, heq⟩ <;> rw [heq] at hc
    · exact hold hc
    · rcases List.mem_append.1 hc with hc | hc
      · exact hold hc
      · exact ⟨t, hmem.2 (.inr rfl), (List.mem_singleton.1 hc).symm, by rw [hparent, ← hid, hsid]⟩
  · rw [hchildren]
    exact fun c hc => absurd hc List.not_mem_nil
  · obtain ⟨s, hs, -, -, hcases⟩ := exists_of_mem_listing hu
    rcases hcases with heq | ⟨-, heq⟩ <;> rw [heq]
    · exact ha.siblings s hs
    · refine (ha.siblings s hs).append (List.nodup_singleton _) ?_
      refine List.disjoint_singleton.2 fun hin => ?_
      obtain ⟨w, hw, hwid, -⟩ := ha.listed s hs _ hin
      exact hnot hw hwid
  · rw [hchildren]
    exact List.nodup_nil

end Snapshot

namespace Builder

/-- The statements of a builder as a snapshot. -/
def tree (b : Builder) : Snapshot := ⟨b.dialect, b.statements, []⟩

/-- Builders that calls lead to, from one with nothing but the database. -/
inductive Reachable : Builder → Prop
  | new (dialect : Dialect) (read : Sql.Reader) : Reachable (.new dialect read)
  | add {b next : Builder} {parent id : ObjectId} {name : String} {definition : Definition}
      (reachable : Reachable b) (added : b.add parent name definition = .ok (id, next)) :
      Reachable next
  | setOwner {b next : Builder} {id : ObjectId} {owner : String} (reachable : Reachable b)
      (set : b.setOwner id owner = .ok next) : Reachable next
  | setComment {b next : Builder} {id : ObjectId} {comment : String} (reachable : Reachable b)
      (set : b.setComment id comment = .ok next) : Reachable next
  | depend {b next : Builder} {id dependency : ObjectId} (reachable : Reachable b)
      (stated : b.depend id dependency = .ok next) : Reachable next
  | settle {b : Builder} (finished : List (ObjectId × Sql.References)) (reachable : Reachable b) :
      Reachable (b.settle finished)

variable {b next : Builder}

/-- Adding dependencies leaves the place of a statement alone. -/
theorem stays_addDependencies (s : Statement) (dependencies : List ObjectId) :
    s.Stays (s.addDependencies dependencies) := by
  unfold Statement.addDependencies
  induction dependencies generalizing s with
  | nil => exact ⟨rfl, rfl, rfl, rfl⟩
  | cons dependency dependencies ih =>
    rw [List.foldl_cons]
    have hone : s.Stays (s.addDependency dependency) := by
      unfold Statement.addDependency
      split <;> exact ⟨rfl, rfl, rfl, rfl⟩
    have hrest := ih (s.addDependency dependency)
    exact ⟨hrest.id.trans hone.id, hrest.parent.trans hone.parent,
      hrest.children.trans hone.children, hrest.definition.trans hone.definition⟩

/-- Statements of which one was changed without its place. -/
theorem exists_map_of_modify {statements : List Statement} {id : ObjectId}
    {change : Statement → Statement} (hchange : ∀ s : Statement, s.Stays (change s)) :
    ∃ f, Statements.modify statements id change = statements.map f ∧
      ∀ s : Statement, s.Stays (f s) := by
  refine ⟨_, rfl, fun s => ?_⟩
  split
  · exact hchange s
  · exact ⟨rfl, rfl, rfl, rfl⟩

/-- What holds of the statements of a builder, and still does when places and definitions stay and
when a statement is added, holds of all builders that calls lead to. -/
theorem Reachable.induct {p : Snapshot → Prop}
    (hmap : ∀ {a b : Snapshot} {f : Statement → Statement}, p a →
      b.statements = a.statements.map f → (∀ s ∈ a.statements, s.Stays (f s)) → p b)
    (hnew : p (tree (.new .postgres Sql.read)))
    (hadd : ∀ {b next : Builder} {parent id : ObjectId} {name : String} {definition : Definition},
      p b.tree → b.add parent name definition = .ok (id, next) → p next.tree)
    (h : b.Reachable) : p b.tree := by
  have hmodify : ∀ {b next : Builder} {id : ObjectId} {change : Statement → Statement}, p b.tree →
      b.modify id change = .ok next → (∀ s : Statement, s.Stays (change s)) → p next.tree := by
    intro b next id change hb h hchange
    unfold modify at h
    split at h
    · obtain rfl := Except.ok.inj h
      obtain ⟨f, hf, hstays⟩ := exists_map_of_modify hchange
      exact hmap (b := tree _) hb hf fun s _ => hstays s
    · cases h
  induction h with
  | new =>
    exact hmap (f := id) hnew (List.map_id _).symm fun _ _ => ⟨rfl, rfl, rfl, rfl⟩
  | add _ added ih => exact hadd ih added
  | setOwner _ set ih | setComment _ set ih => exact hmodify ih set fun _ => ⟨rfl, rfl, rfl, rfl⟩
  | depend _ stated ih =>
    refine hmodify ih stated fun s => ?_
    unfold Statement.state
    split <;> exact ⟨rfl, rfl, rfl, rfl⟩
  | @settle b finished _ ih =>
    -- Each finished task changes one statement, whose place stays.
    change p (Snapshot.mk b.dialect (List.foldl _ b.statements _) [])
    refine List.foldlRecOn (motive := fun statements => p ⟨b.dialect, statements, []⟩) _ _ ih
      fun statements hstatements task _ => ?_
    obtain ⟨f, hf, hstays⟩ := exists_map_of_modify fun s => stays_addDependencies s _
    exact hmap hstatements hf fun s _ => hstays s

/-- Adding a statement leaves a tree. -/
theorem wellFormed_of_add {parent id : ObjectId} {name : String} {definition : Definition}
    (hb : b.tree.WellFormed) (h : b.add parent name definition = .ok (id, next)) :
    next.tree.WellFormed := by
  unfold add at h
  dsimp only at h
  split at h
  · cases h
  next p hp =>
  split at h
  · cases h
  next hunder =>
  split at h
  · cases h
  next hfresh =>
  obtain ⟨rfl, rfl⟩ := Prod.mk.inj (Except.ok.inj h)
  have hp : b.tree.get? parent = some p := hp
  refine Snapshot.WellFormed.append (b := tree _) hb
    (t := ⟨parent.child definition.kind (definition.identityName name), some parent, definition,
      none, none, [], [], []⟩) rfl rfl (Snapshot.contains_iff.2 ⟨p, hp⟩) ?_ ?_ rfl
    (Bool.eq_false_iff.2 hfresh)
  · rw [Statement.kind, (Snapshot.get?_some hp).2, Bool.not_eq_true', Bool.not_eq_false] at hunder
    exact hunder
  · exact congrArg (parent.child definition.kind) (ObjectId.child_name ..).symm

/-- The statements of a builder always form a tree. -/
theorem Reachable.wellFormed (h : b.Reachable) : b.tree.WellFormed :=
  h.induct Snapshot.WellFormed.map (by decide) wellFormed_of_add

/-- Adding a statement names it for the kind of its definition. -/
theorem typed_of_add {parent id : ObjectId} {name : String} {definition : Definition}
    (hb : b.tree.Typed) (h : b.add parent name definition = .ok (id, next)) :
    next.tree.Typed := by
  unfold add at h
  dsimp only at h
  split at h
  · cases h
  split at h
  · cases h
  split at h
  · cases h
  obtain ⟨rfl, rfl⟩ := Prod.mk.inj (Except.ok.inj h)
  intro s hs
  rcases List.mem_append.1 hs with hs | hs
  · obtain ⟨t, ht, rfl⟩ := List.mem_map.1 hs
    have hkind := hb t ht
    split <;> exact hkind
  · rw [List.mem_singleton.1 hs]
    rfl

/-- The definitions of a builder are always of the kinds that their identities name. -/
theorem Reachable.typed (h : b.Reachable) : b.tree.Typed :=
  h.induct Snapshot.Typed.map (by decide) typed_of_add

section
variable {snapshot : Snapshot} (h : b.Reachable) (hfinish : b.finish = .ok snapshot)
include h hfinish

omit h in
/-- Finishing leaves the places of the statements alone. -/
theorem exists_map_of_finish :
    ∃ f, snapshot.statements = b.tree.statements.map f ∧ ∀ s : Statement, s.Stays (f s) := by
  unfold finish at hfinish
  split at hfinish
  · cases hfinish
  · split at hfinish
    · cases hfinish
    · obtain rfl := Except.ok.inj hfinish
      exact ⟨_, rfl, fun s => stays_addDependencies s _⟩

/-- Every snapshot that is finished is well-formed. -/
theorem wellFormed_of_finish : snapshot.WellFormed := by
  obtain ⟨f, hf, hstays⟩ := exists_map_of_finish hfinish
  exact h.wellFormed.map hf fun s _ => hstays s

/-- Every snapshot that is finished is typed. -/
theorem typed_of_finish : snapshot.Typed := by
  obtain ⟨f, hf, hstays⟩ := exists_map_of_finish hfinish
  exact h.typed.map hf fun s _ => hstays s

end

end Builder

/-! ## Documents -/

namespace SnapshotDocument

open Builder

mutual

/-- Adding a node and those under it leads on from builders that calls lead to. -/
theorem reachable_of_grow {growth next : Growth} {parent : ObjectId} :
    ∀ {node : Node}, growth.builder.Reachable → grow growth parent node = .ok next →
      next.builder.Reachable
  | ⟨name, owner, comment, dependencies, children, definition⟩, hgrowth, h => by
    unfold grow at h
    dsimp only at h
    split at h
    · cases h
    obtain ⟨⟨id, added⟩, hadded, h⟩ := bind_eq_ok.1 h
    have hadded := hgrowth.add hadded
    -- The owner and the comment are set where the node has them.
    obtain ⟨described, hdescribed, h⟩ : ∃ described : Builder, described.Reachable ∧
        growAll ⟨described, growth.stated ++ [(id, dependencies)]⟩ id children = .ok next := by
      cases owner with
      | none =>
        cases comment with
        | none => exact ⟨added, hadded, h⟩
        | some comment =>
          obtain ⟨described, hdescribed, h⟩ :=
            (bind_eq_ok (x := added.setComment id comment)).1 h
          exact ⟨described, hadded.setComment hdescribed, h⟩
      | some owner =>
        obtain ⟨owned, howned, h⟩ := bind_eq_ok.1 h
        cases comment with
        | none => exact ⟨owned, hadded.setOwner howned, h⟩
        | some comment =>
          obtain ⟨described, hdescribed, h⟩ := bind_eq_ok.1 h
          exact ⟨described, (hadded.setOwner howned).setComment hdescribed, h⟩
    exact reachable_of_growAll hdescribed h

/-- So does adding nodes one after the other. -/
theorem reachable_of_growAll {growth next : Growth} {parent : ObjectId} :
    ∀ {nodes : List Node}, growth.builder.Reachable → growAll growth parent nodes = .ok next →
      next.builder.Reachable
  | [], hgrowth, h => by
    unfold growAll at h
    obtain rfl := Except.ok.inj h
    exact hgrowth
  | node :: nodes, hgrowth, h => by
    unfold growAll at h
    obtain ⟨middle, hmiddle, h⟩ := bind_eq_ok.1 h
    exact reachable_of_growAll (reachable_of_grow hgrowth hmiddle) h

end

/-- Calls lead to the builder of a document. -/
theorem reachable_of_builder {document : SnapshotDocument} {b : Builder}
    (h : document.builder = .ok b) : b.Reachable := by
  unfold builder at h
  obtain ⟨growth, hgrowth, h⟩ := bind_eq_ok.1 h
  refine foldlM_preserves Reachable h (reachable_of_growAll (.new _ _) hgrowth) ?_
  rintro ⟨id, dependencies⟩ - b next hb hnext
  exact foldlM_preserves Reachable hnext hb fun dependency _ b next hb hnext => hb.depend hnext

end SnapshotDocument

namespace Snapshot

section
variable {path text : String} {snapshot : Snapshot} (h : ofText path text = .ok snapshot)
include h

/-- Calls lead to a snapshot that is read from a document. -/
theorem exists_finish_of_ofText : ∃ b : Builder, b.Reachable ∧ b.finish = .ok snapshot := by
  unfold ofText at h
  obtain ⟨b, hb, hfinish⟩ := bind_eq_ok.1 h
  refine ⟨_, .settle _ ?_, hfinish⟩
  unfold parse at hb
  split at hb
  · exact SnapshotDocument.reachable_of_builder hb
  · cases hb

/-- Every snapshot that is read from a document is well-formed. -/
theorem wellFormed_of_ofText : snapshot.WellFormed := by
  obtain ⟨b, hb, hfinish⟩ := exists_finish_of_ofText h
  exact Builder.wellFormed_of_finish hb hfinish

/-- Every snapshot that is read from a document is typed. -/
theorem typed_of_ofText : snapshot.Typed := by
  obtain ⟨b, hb, hfinish⟩ := exists_finish_of_ofText h
  exact Builder.typed_of_finish hb hfinish

end

end Snapshot

end SchemaMigration
