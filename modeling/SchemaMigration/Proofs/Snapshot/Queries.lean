import Mathlib.Computability.StateTransition
import Mathlib.Data.List.Flatten
import SchemaMigration.Proofs.Snapshot.Dependencies
import SchemaMigration.Proofs.Snapshot.Sides

/-!
# Questions about the tree

Three questions about a built snapshot are answered by walking its tree. `descendants` walks down
the lists of children; `isDescendant` and `topLevel` walk up from parent to parent. Each walk is a
loop with nothing that counts its turns: `Snapshot.visit`, `Snapshot.climb` and `Snapshot.emerge`
are the turns, and `StateTransition.eval` repeats a turn for as long as there is one. That the walks
end rests on the levels of kinds (`ObjectKind.depth`), in either direction: what a turn comes to
stands deeper, or less deep, than what it came from. They end for every identity, whether it is
there or not, with the answers that `descendants`, `isDescendant` and `topLevel` give
(`Builder.tree_queries_agree`).
-/

namespace SchemaMigration

namespace Snapshot

variable {snapshot : Snapshot} {a d p : ObjectId}

/-! ## The loops -/

/-- A turn of the walk down: the statement on top of the stack is listed, and its children take its
place on the stack. -/
def visit (snapshot : Snapshot) :
    List Statement × List Statement → Option (List Statement × List Statement)
  | ([], _) => none
  | (s :: stack, listed) => some (snapshot.children s.id ++ stack, listed ++ [s])

/-- A turn of the search for an owner: the search ends at the owner or where nothing is left, and
goes on to the parent everywhere else. -/
def climb (snapshot : Snapshot) (owner : ObjectId) : Option ObjectId → Option (Option ObjectId)
  | none => none
  | some id => if id = owner then none else some (snapshot.parent? id)

/-- A turn of the way out of sub-elements: it leads to the parent of a sub-element that has one. -/
def emerge (snapshot : Snapshot) (id : ObjectId) : Option ObjectId :=
  if id.kind.isSubElement then snapshot.parent? id else none

/-! ## Walking down -/

/-- The identities of the descendants. -/
def idsBelow (snapshot : Snapshot) (id : ObjectId) : List ObjectId :=
  (snapshot.descendants id).map (·.id)

namespace WellFormed

variable (h : snapshot.WellFormed)
include h

/-- The identities below an identity are those that it owns. -/
theorem mem_idsBelow : d ∈ snapshot.idsBelow a ↔ snapshot.Owns a d := by
  rw [idsBelow, List.mem_map]
  exact h.mem_descendants_iff

/-- The parent of a child. -/
theorem parent?_of_mem_children {child : Statement} (hchild : child ∈ snapshot.children a) :
    snapshot.parent? child.id = some a :=
  h.exists_mem_children.1 ⟨child, hchild, rfl⟩

/-- A child stands one level deeper. -/
theorem depth_of_mem_children {child : Statement} (hchild : child ∈ snapshot.children a) :
    child.id.kind.depth = a.kind.depth + 1 :=
  ObjectKind.depth_of_canBeUnder (h.owner_of_parent? (h.parent?_of_mem_children hchild)).2.1

/-- Whatever carries over from the children of an identity to the identity is true of all, since
there are no children on the lowest level. -/
@[elab_as_elim]
theorem down_induction {motive : ObjectId → Prop}
    (step : ∀ a, (∀ child ∈ snapshot.children a, motive child.id) → motive a) (a : ObjectId) :
    motive a := by
  induction hheight : 3 - a.kind.depth using Nat.strong_induction_on generalizing a with
  | h height ih =>
    refine step a fun child hchild => ih _ ?_ child.id rfl
    have := h.depth_of_mem_children hchild
    have := child.id.kind.depth_le
    omega

/-- Going one level deeper finds no more once everything is found. -/
theorem descendantsWithin_succ {steps : Nat}
    (hsteps : ∀ d, snapshot.Owns a d → d.kind.depth ≤ a.kind.depth + steps) :
    snapshot.descendantsWithin (steps + 1) a = snapshot.descendantsWithin steps a := by
  induction steps generalizing a with
  | zero =>
    have hnone : snapshot.children a = [] := by
      refine List.eq_nil_iff_forall_not_mem.2 fun child hchild => ?_
      have := hsteps child.id (.single (h.parent?_of_mem_children hchild))
      have := h.depth_of_mem_children hchild
      omega
    rw [descendantsWithin, descendantsWithin, hnone, List.flatMap_nil]
  | succ steps ih =>
    rw [descendantsWithin, descendantsWithin]
    refine List.flatMap_congr fun child hchild => ?_
    rw [ih fun d hd => ?_]
    have := hsteps d (.head (h.parent?_of_mem_children hchild) hd)
    have := h.depth_of_mem_children hchild
    omega

/-- The descendants are the children, each with its descendants behind it. -/
theorem descendants_eq (a : ObjectId) : snapshot.descendants a =
    (snapshot.children a).flatMap fun child => child :: snapshot.descendants child.id := by
  have hrooted := h.depth_lt_length h.rooted
  obtain ⟨steps, hsteps⟩ : ∃ n, snapshot.statements.length = n + 1 :=
    ⟨snapshot.statements.length - 1, by omega⟩
  simp only [descendants, hsteps]
  rw [descendantsWithin]
  refine List.flatMap_congr fun child _ => ?_
  rw [h.descendantsWithin_succ fun d hd => ?_]
  have := h.depth_lt_length (contains_of_owns hd)
  omega

/-- So are their identities. -/
theorem idsBelow_eq (a : ObjectId) : snapshot.idsBelow a =
    (snapshot.children a).flatMap fun child => child.id :: snapshot.idsBelow child.id := by
  rw [idsBelow, h.descendants_eq, List.map_flatMap]
  rfl

/-- Once the children of an identity are on the stack, the walk comes to where they are gone from it
and the descendants are listed. -/
theorem reaches_visit (a : ObjectId) : ∀ stack listed, StateTransition.Reaches snapshot.visit
    (snapshot.children a ++ stack, listed) (stack, listed ++ snapshot.descendants a) := by
  induction a using h.down_induction with
  | step a ih =>
    rw [h.descendants_eq]
    generalize snapshot.children a = children at ih
    -- The children are taken from the stack one after the other.
    induction children with
    | nil =>
      intro stack listed
      rw [List.flatMap_nil, List.append_nil]
      exact .refl
    | cons child children ihChildren =>
      intro stack listed
      have hvisit : StateTransition.Reaches snapshot.visit
          (child :: (children ++ stack), listed)
          (snapshot.children child.id ++ (children ++ stack), listed ++ [child]) := .single rfl
      have hbelow := ih child List.mem_cons_self (children ++ stack) (listed ++ [child])
      have hrest := ihChildren (fun other hother => ih other (List.mem_cons_of_mem _ hother)) stack
        (listed ++ [child] ++ snapshot.descendants child.id)
      have hall : StateTransition.Reaches snapshot.visit _ _ := (hvisit.trans hbelow).trans hrest
      simpa using hall

/-- The walk down ends, with the descendants. -/
theorem mem_eval_visit (a : ObjectId) : ([], snapshot.descendants a) ∈
    StateTransition.eval snapshot.visit (snapshot.children a, []) := by
  refine StateTransition.mem_eval.2 ⟨?_, rfl⟩
  simpa using h.reaches_visit a [] []

/-! ## The order of descendants -/

/-- No identity is below another one twice. -/
theorem nodup_idsBelow (a : ObjectId) : (snapshot.idsBelow a).Nodup := by
  induction a using h.down_induction with
  | step a ih =>
    rw [h.idsBelow_eq, List.nodup_flatMap]
    refine ⟨fun child hchild => List.nodup_cons.2 ⟨fun hin => ?_, ih child hchild⟩, ?_⟩
    · exact h.not_owns_self (h.mem_idsBelow.1 hin)
    · -- What is on the branches of two children would make them one.
      have hbranch : ∀ {child : Statement} {d}, d ∈ child.id :: snapshot.idsBelow child.id →
          d = child.id ∨ snapshot.Owns child.id d := fun hin =>
        (List.mem_cons.1 hin).imp_right h.mem_idsBelow.1
      refine (List.pairwise_map.1 (h.nodup_children a)).imp_of_mem ?_
      intro child other hchild hother hne d hd hdother
      refine hne (h.branch_eq_of_depth (hbranch hd) (hbranch hdother) ?_)
      rw [h.depth_of_mem_children hchild, h.depth_of_mem_children hother]

/-- The branch of a child is one piece of what is below its parent. -/
theorem branch_infix {child : Statement} (hchild : child ∈ snapshot.children a) :
    child.id :: snapshot.idsBelow child.id <:+: snapshot.idsBelow a := by
  rw [h.idsBelow_eq a]
  exact List.infix_of_mem_flatten (List.mem_map_of_mem hchild)

/-- What is below something below an identity follows right behind it. -/
theorem infix_idsBelow (hp : p ∈ snapshot.idsBelow a) :
    p :: snapshot.idsBelow p <:+: snapshot.idsBelow a := by
  induction a using h.down_induction with
  | step a ih =>
    rw [h.idsBelow_eq] at hp
    obtain ⟨child, hchild, hp⟩ := List.mem_flatMap.1 hp
    refine List.IsInfix.trans ?_ (h.branch_infix hchild)
    rcases List.mem_cons.1 hp with rfl | hp
    · exact List.infix_rfl
    · exact List.infix_cons (ih child hchild hp)

/-- Children come in their order. -/
theorem sublist_children (p : ObjectId) :
    ((snapshot.children p).map (·.id)).Sublist (snapshot.idsBelow p) := by
  rw [h.idsBelow_eq, List.map_eq_flatMap]
  exact List.Sublist.flatMap_right _ fun child _ => (List.nil_sublist _).cons_cons _

end WellFormed

/-- Identities are those that `a` is found to own, in the order of a tree. -/
structure TreeOrder (snapshot : Snapshot) (a : ObjectId) (ids : List ObjectId) : Prop where
  /-- The search for an owner finds `a` from them and from nothing else. -/
  complete : ∀ d, d ∈ ids ↔ snapshot.isDescendant d a = true
  /-- Each comes once. -/
  once : ids.Nodup
  /-- Parents come before their children, -/
  parentFirst : ∀ p c, p ∈ ids → snapshot.parent? c = some p → [p, c].Sublist ids
  /-- with all that they own right behind them. -/
  together : ∀ p ∈ ids, p :: snapshot.idsBelow p <:+: ids
  /-- The children of one parent come in their order. -/
  siblings : ∀ p, p = a ∨ p ∈ ids → ((snapshot.children p).map (·.id)).Sublist ids

/-- The identities below an identity are in the order of the tree. -/
theorem WellFormed.treeOrder_idsBelow (h : snapshot.WellFormed) (a : ObjectId) :
    snapshot.TreeOrder a (snapshot.idsBelow a) where
  complete d := h.mem_idsBelow.trans h.isDescendant_iff.symm
  once := h.nodup_idsBelow a
  parentFirst p c hp hc := by
    have hbelow : c ∈ snapshot.idsBelow p := h.mem_idsBelow.2 (.single hc)
    exact ((List.singleton_sublist.2 hbelow).cons_cons p).trans (h.infix_idsBelow hp).sublist
  together p hp := h.infix_idsBelow hp
  siblings p hp := by
    rcases hp with rfl | hp
    · exact h.sublist_children p
    · exact ((h.sublist_children p).cons p).trans (h.infix_idsBelow hp).sublist

/-! ## Walking up -/

/-- The search for an owner ends: at the owner where it is one, and else where nothing is left. -/
theorem WellFormed.mem_eval_climb (h : snapshot.WellFormed) (a d : ObjectId) :
    (if snapshot.isDescendant d a then some a else none) ∈
      StateTransition.eval (snapshot.climb a) (snapshot.parent? d) := by
  induction hdepth : d.kind.depth using Nat.strong_induction_on generalizing d with
  | h depth ih =>
    cases hp : snapshot.parent? d with
    | none =>
      have hnot : ¬ snapshot.isDescendant d a = true := by
        intro howns
        obtain ⟨p, hparent, -⟩ := exists_parent?_of_owns (h.isDescendant_iff.1 howns)
        rw [hp] at hparent
        cases hparent
      rw [if_neg hnot]
      exact StateTransition.mem_eval.2 ⟨.refl, rfl⟩
    | some p =>
      by_cases hpa : p = a
      · have howns : snapshot.isDescendant d a = true := h.isDescendant_iff.2 (.single (hpa ▸ hp))
        rw [if_pos howns, hpa]
        exact StateTransition.mem_eval.2 ⟨.refl, if_pos rfl⟩
      · have hsame : snapshot.isDescendant d a = snapshot.isDescendant p a := by
          rw [Bool.eq_iff_iff, h.isDescendant_iff, h.isDescendant_iff]
          refine ⟨fun howns => ?_, fun howns => .tail howns hp⟩
          obtain ⟨q, hq, hqa⟩ := exists_parent?_of_owns howns
          obtain rfl := Option.some.inj (hp.symm.trans hq)
          exact hqa.resolve_left hpa
        have hturn : StateTransition.Reaches (snapshot.climb a) (some p) (snapshot.parent? p) :=
          .single (if_neg hpa)
        have hdeeper := h.depth_lt_of_owns (.single hp)
        rw [StateTransition.reaches_eval hturn, hsame]
        exact ih _ (hdepth ▸ hdeeper) p rfl

/-- The way out of sub-elements ends at the top level. -/
theorem WellFormed.mem_eval_emerge (h : snapshot.WellFormed) (d : ObjectId) :
    snapshot.topLevel d ∈ StateTransition.eval snapshot.emerge d := by
  rw [StateTransition.mem_eval]
  cases hsub : d.kind.isSubElement with
  | false =>
    rw [topLevel_of_not_isSubElement hsub]
    exact ⟨.refl, by simp [emerge, hsub]⟩
  | true =>
    cases hp : snapshot.parent? d with
    | none =>
      have hgone : snapshot.contains d = false := by
        by_contra hthere
        obtain ⟨p, hparent⟩ := h.exists_parent? (Bool.not_eq_false _ ▸ hthere)
          (by rintro rfl; cases hsub)
        rw [hp] at hparent
        cases hparent
      rw [topLevel_of_not_contains hgone]
      exact ⟨.refl, by simp [emerge, hp]⟩
    | some p =>
      have hnot := h.not_isSubElement_of_parent? hp
      rw [h.topLevel_of_parent? hsub hp]
      exact ⟨.single (by simp [emerge, hsub, hp]), by simp [emerge, hnot]⟩

/-- An identity is the nearest one to `d`, from `d` itself upwards, that is no sub-element. -/
structure IsTopLevel (snapshot : Snapshot) (d top : ObjectId) : Prop where
  self_or_owner : top = d ∨ snapshot.Owns top d
  not_isSubElement : top.kind.isSubElement = false
  /-- From `d` up to below the identity there are sub-elements only. -/
  below : ∀ id, id = d ∨ snapshot.Owns id d → snapshot.Owns top id → id.kind.isSubElement = true

/-- The top level of what is there. -/
theorem WellFormed.isTopLevel (h : snapshot.WellFormed) (hd : snapshot.contains d = true) :
    snapshot.IsTopLevel d (snapshot.topLevel d) := by
  cases hsub : d.kind.isSubElement with
  | false =>
    rw [topLevel_of_not_isSubElement hsub]
    refine ⟨.inl rfl, hsub, fun id hid howns => ?_⟩
    have habove := h.depth_lt_of_owns howns
    rcases hid with rfl | hid
    · omega
    · have := h.depth_lt_of_owns hid
      omega
  | true =>
    obtain ⟨p, hp⟩ := h.exists_parent? hd (by rintro rfl; cases hsub)
    rw [h.topLevel_of_parent? hsub hp]
    refine ⟨.inr (.single hp), h.not_isSubElement_of_parent? hp, fun id hid howns => ?_⟩
    rcases hid with rfl | hid
    · exact hsub
    · -- Nothing stands between an identity and its parent.
      have habove := h.depth_lt_of_owns howns
      have hbelow := h.depth_lt_of_owns hid
      have hstep := ObjectKind.depth_of_canBeUnder (h.owner_of_parent? hp).2.1
      omega

end Snapshot

namespace Builder

/-- **The questions about the tree of a built snapshot agree and end.** The descendants of an
identity are those identities from which the search for an owner finds it, in the order of the tree;
what the search finds is ownership. The top level of what is there is the nearest identity upwards
that is no sub-element. The walk down and both walks up end with these answers from every identity,
whether it is there or not. -/
theorem tree_queries_agree {b : Builder} {snapshot : Snapshot} (hb : b.Reachable)
    (hfinish : b.finish = .ok snapshot) :
    (∀ a, snapshot.TreeOrder a ((snapshot.descendants a).map (·.id)) ∧
      ([], snapshot.descendants a) ∈
        StateTransition.eval snapshot.visit (snapshot.children a, [])) ∧
    (∀ d a, (snapshot.isDescendant d a = true ↔ snapshot.Owns a d) ∧
      (if snapshot.isDescendant d a then some a else none) ∈
        StateTransition.eval (snapshot.climb a) (snapshot.parent? d)) ∧
    ∀ d, snapshot.topLevel d ∈ StateTransition.eval snapshot.emerge d ∧
      (snapshot.contains d = true → snapshot.IsTopLevel d (snapshot.topLevel d)) := by
  have hwf := wellFormed_of_finish hb hfinish
  exact ⟨fun a => ⟨hwf.treeOrder_idsBelow a, hwf.mem_eval_visit a⟩,
    fun d a => ⟨hwf.isDescendant_iff, hwf.mem_eval_climb a d⟩,
    fun d => ⟨hwf.mem_eval_emerge d, hwf.isTopLevel⟩⟩

end Builder

namespace Builder.TwoTables

/-- The schema. -/
def schema : ObjectId := ⟨.schema, ["a"]⟩

/-- A column of the first table. -/
def column (name : String) : ObjectId := ⟨.column, ["a", "t", name]⟩

/-- Two tables, the first one with two columns of which one is added last. -/
def calls : List Call :=
  [.add .database "a" (.schema {}), .add schema "t" (.table {}),
    .add (.table "a" "t") "x" (.column { dataType := "int" }), .add schema "u" (.table {}),
    .add (.table "a" "t") "y" (.column { dataType := "int" })]

/-- The builder. -/
def builder : Builder := (new .postgres Sql.read).run calls

/-- The snapshot that the builder is finished to. -/
def snapshot : Snapshot := ⟨.postgres, builder.linked, Fingerprint.table builder.linked⟩

/-- Both columns follow their table and lead back to it; a column that is not there is its own top
level. -/
theorem columns_behind_table :
    builder.Reachable ∧ builder.finish = .ok snapshot ∧
      snapshot.TreeOrder schema [.table "a" "t", column "x", column "y", .table "a" "u"] ∧
      some schema ∈ StateTransition.eval (snapshot.climb schema) (snapshot.parent? (column "y")) ∧
      snapshot.IsTopLevel (column "y") (.table "a" "t") ∧
      column "z" ∈ StateTransition.eval snapshot.emerge (column "z") := by
  have hreachable : builder.Reachable := (Reachable.new .postgres Sql.read).run calls
  have hfinish : builder.finish = .ok snapshot := rfl
  obtain ⟨hdown, hup, htop⟩ := tree_queries_agree hreachable hfinish
  have hthere : snapshot.contains (column "y") = true := rfl
  exact ⟨hreachable, hfinish, (hdown schema).1, (hup (column "y") schema).2,
    (htop (column "y")).2 hthere, (htop (column "z")).1⟩

end Builder.TwoTables

end SchemaMigration
