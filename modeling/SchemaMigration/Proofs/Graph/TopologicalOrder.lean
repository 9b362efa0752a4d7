import Mathlib.Data.List.Nodup
import Mathlib.Data.List.Perm.Subperm
import Mathlib.Order.WellFoundedSet
import SchemaMigration.Graph.TopologicalOrder

/-!
# Topological orders respect their edges

The search takes a node only when no edge into it comes from a node that is still to be taken. This
is what its counters say: between two steps the counter of a position is the number of edges into it
from positions that were not taken (`openDegree`), and in the middle of a step it is larger by the
edges that are still to be released (`Frontier.Tracks`). So an order that the search gives lists
each node once, and behind the sources of all edges into it (`topologicalOrder_perm`,
`sublist_of_topologicalOrder`).

The other way round, every position without open edges is ready (`Frontier.Offers`). So if the
search ends early, each position that is left has an open edge from another one that is left, and
these form a cycle: without cycles there is an order (`exists_topologicalOrder`).
-/

namespace SchemaMigration.Graph

/-! ## Positions of nodes -/

section
variable {α : Type} [DecidableEq α]

/-- A position that was found holds the node. -/
theorem getElem?_of_lastPosition? {a : α} {l : List α} {start position : Nat}
    (h : lastPosition? a start l = some position) :
    start ≤ position ∧ l[position - start]? = some a := by
  induction l generalizing start position with
  | nil => simp [lastPosition?] at h
  | cons b bs ih =>
    unfold lastPosition? at h
    split at h
    · next found hp =>
      obtain rfl := Option.some.inj h
      obtain ⟨hle, hget⟩ := ih hp
      refine ⟨by omega, ?_⟩
      rw [show found - start = found - (start + 1) + 1 by omega, List.getElem?_cons_succ]
      exact hget
    · split at h
      · next hab => cases h; simp [hab]
      · cases h

/-- A node that is listed has a position. -/
theorem exists_lastPosition? {a : α} {l : List α} (start : Nat) (h : a ∈ l) :
    ∃ position, lastPosition? a start l = some position := by
  induction l generalizing start with
  | nil => simp at h
  | cons b bs ih =>
    unfold lastPosition?
    split
    · exact ⟨_, rfl⟩
    · next hnone =>
      rcases List.mem_cons.1 h with rfl | h
      · exact ⟨start, by simp⟩
      · obtain ⟨position, hp⟩ := ih (start + 1) h
        rw [hp] at hnone
        cases hnone

/-- An edge between listed nodes is an edge between positions that hold them. -/
theorem exists_mem_positionedEdges {nodes : List α} {edges : List (α × α)} {a b : α}
    (h : (a, b) ∈ edges) (ha : a ∈ nodes) (hb : b ∈ nodes) :
    ∃ i j, (i, j) ∈ positionedEdges nodes edges ∧ nodes[i]? = some a ∧ nodes[j]? = some b := by
  obtain ⟨i, hi⟩ := exists_lastPosition? 0 ha
  obtain ⟨j, hj⟩ := exists_lastPosition? 0 hb
  refine ⟨i, j, ?_, (getElem?_of_lastPosition? hi).2, (getElem?_of_lastPosition? hj).2⟩
  exact List.mem_filterMap.2 ⟨(a, b), h, by simp [hi, hj]⟩

/-- An edge between positions is an edge between the nodes that they hold. -/
theorem exists_of_mem_positionedEdges {nodes : List α} {edges : List (α × α)} {i j : Nat}
    (h : (i, j) ∈ positionedEdges nodes edges) :
    ∃ a b, (a, b) ∈ edges ∧ nodes[i]? = some a ∧ nodes[j]? = some b := by
  obtain ⟨⟨a, b⟩, hab, hpositions⟩ := List.mem_filterMap.1 h
  obtain ⟨i', hi, hpositions⟩ := Option.bind_eq_some_iff.1 hpositions
  obtain ⟨j', hj, hpositions⟩ := Option.bind_eq_some_iff.1 hpositions
  obtain ⟨rfl, rfl⟩ := Prod.mk.inj (Option.some.inj hpositions)
  exact ⟨a, b, hab, (getElem?_of_lastPosition? hi).2, (getElem?_of_lastPosition? hj).2⟩

end

/-! ## Counters -/

/-- The number of edges into a position from positions that were not taken. -/
def openDegree (edges : List (Nat × Nat)) (taken : List Nat) (position : Nat) : Nat :=
  edges.countP fun edge => edge.2 == position && !taken.contains edge.1

/-- Before anything is taken all edges into a position count. -/
theorem openDegree_nil (edges : List (Nat × Nat)) (position : Nat) :
    openDegree edges [] position = inDegree edges position := by
  simp [openDegree, inDegree]

/-- Taking a position releases the edges out of it. -/
theorem openDegree_cons {taken : List Nat} {p : Nat} (hp : p ∉ taken) (q : Nat)
    (edges : List (Nat × Nat)) :
    openDegree edges taken q = openDegree edges (p :: taken) q + (targetsOf edges p).count q := by
  induction edges with
  | nil => rfl
  | cons edge edges ih =>
    obtain ⟨s, t⟩ := edge
    simp only [openDegree, targetsOf, List.countP_cons, List.filter_cons, beq_iff_eq,
      List.contains_cons, Bool.and_eq_true, Bool.not_eq_true', Bool.or_eq_false_iff] at ih ⊢
    by_cases hs : s = p
    · subst hs
      by_cases ht : t = q
      · subst ht
        simp_all
        omega
      · simp_all
    · by_cases ht : t = q <;> by_cases hm : s ∈ taken <;> (simp_all; try omega)

/-- A position without open edges has been reached from taken positions only. -/
theorem mem_of_openDegree_eq_zero {edges : List (Nat × Nat)} {taken : List Nat} {s q : Nat}
    (h : openDegree edges taken q = 0) (hs : (s, q) ∈ edges) : s ∈ taken := by
  have := List.countP_eq_zero.1 h (s, q) hs
  simpa using this

/-- A position that is reached from taken positions only has no open edges. -/
theorem openDegree_eq_zero {edges : List (Nat × Nat)} {taken : List Nat} {q : Nat}
    (h : ∀ s, (s, q) ∈ edges → s ∈ taken) : openDegree edges taken q = 0 := by
  refine List.countP_eq_zero.2 fun (s, t) hedge hopen => ?_
  simp only [Bool.and_eq_true, beq_iff_eq, Bool.not_eq_true', List.contains_eq_mem,
    decide_eq_false_iff_not] at hopen
  obtain ⟨rfl, hs⟩ := hopen
  exact hs (h s hedge)

/-! ## Frontiers -/

section
variable {κ : Type}

/-- What a frontier says of the search: `taken` lists the positions taken so far, and `due` the
targets whose counters are still to be lowered. -/
structure Frontier.Tracks (keys : List κ) (edges : List (Nat × Nat)) (taken due : List Nat)
    (frontier : Frontier κ) : Prop where
  size : frontier.counters.size = keys.length
  counter : ∀ q, q < keys.length →
    frontier.counters[q]? = some (openDegree edges taken q + due.count q)
  ready : ∀ entry ∈ frontier.ready, entry.2 < keys.length ∧ entry.2 ∉ taken ∧
    openDegree edges taken entry.2 = 0 ∧ entry.2 ∉ due
  distinct : (frontier.ready.map (·.2)).Nodup

/-- Inserting a position adds it to the ready ones. -/
theorem perm_insertReady [Ord κ] (entry : κ × Nat) :
    ∀ ready, (insertReady entry ready).Perm (entry :: ready)
  | [] => .refl _
  | other :: rest => by
    unfold insertReady
    split
    · exact .refl _
    · exact ((perm_insertReady entry rest).cons other).trans (.swap entry other rest)

/-- Releasing an edge keeps track: the counter goes down by one, and reaches zero only when no open
edge is left. -/
theorem Frontier.Tracks.release [Ord κ] {keys : List κ} {edges : List (Nat × Nat)}
    {taken due : List Nat} {t : Nat} {frontier : Frontier κ} (ht : t ∉ taken)
    (h : frontier.Tracks keys edges taken (t :: due)) :
    (frontier.release keys t).Tracks keys edges taken due := by
  have hcounter : ∀ q, q < keys.length →
      (frontier.counters.modify t (· - 1))[q]? = some (openDegree edges taken q + due.count q) := by
    intro q hq
    rw [Array.getElem?_modify, h.counter q hq]
    by_cases hqt : t = q
    · subst hqt; simp
    · rw [if_neg hqt, List.count_cons_of_ne hqt]
  have hready : ∀ entry ∈ frontier.ready, entry.2 < keys.length ∧ entry.2 ∉ taken ∧
      openDegree edges taken entry.2 = 0 ∧ entry.2 ∉ due := fun entry he =>
    ⟨(h.ready entry he).1, (h.ready entry he).2.1, (h.ready entry he).2.2.1,
      fun hd => (h.ready entry he).2.2.2 (List.mem_cons_of_mem _ hd)⟩
  rw [Frontier.release]
  split
  · next key hzero hkey =>
    -- The counter is exact, so at zero nothing is open and `t` is not due again.
    have hlt : t < keys.length := (List.getElem?_eq_some_iff.1 hkey).1
    have hsum : openDegree edges taken t + due.count t = 0 := by
      have := hcounter t hlt
      rw [hzero] at this
      exact (Option.some.inj this).symm
    have hperm := perm_insertReady (key, t) frontier.ready
    refine ⟨by simpa using h.size, hcounter, fun entry he => ?_, ?_⟩
    · rcases List.mem_cons.1 (hperm.mem_iff.1 he) with rfl | he
      · exact ⟨hlt, ht, Nat.eq_zero_of_add_eq_zero_right hsum,
          List.count_eq_zero.1 (Nat.eq_zero_of_add_eq_zero_left hsum)⟩
      · exact hready entry he
    · rw [(hperm.map (·.2)).nodup_iff, List.map_cons, List.nodup_cons]
      refine ⟨fun hmem => ?_, h.distinct⟩
      obtain ⟨entry, he, het⟩ := List.mem_map.1 hmem
      exact (h.ready entry he).2.2.2 (het ▸ List.mem_cons_self)
  · exact ⟨by simpa using h.size, hcounter, hready, h.distinct⟩

/-- Releasing all due edges leaves none. -/
theorem Frontier.Tracks.releaseAll [Ord κ] {keys : List κ} {edges : List (Nat × Nat)}
    {taken due : List Nat} {frontier : Frontier κ} (hd : ∀ t ∈ due, t ∉ taken)
    (h : frontier.Tracks keys edges taken due) :
    (due.foldl (Frontier.release keys) frontier).Tracks keys edges taken [] := by
  induction due generalizing frontier with
  | nil => exact h
  | cons t due ih =>
    exact ih (fun u hu => hd u (List.mem_cons_of_mem _ hu)) (h.release (hd t List.mem_cons_self))

/-- Nothing is taken before the sources of all edges into it. -/
def Closed (edges : List (Nat × Nat)) (taken : List Nat) : Prop :=
  ∀ q ∈ taken, openDegree edges taken q = 0

/-- Taking a position without open edges into it keeps the taken ones closed. -/
theorem Closed.cons {edges : List (Nat × Nat)} {taken : List Nat} {p : Nat}
    (h : Closed edges taken) (hp : p ∉ taken) (hopen : openDegree edges taken p = 0) :
    Closed edges (p :: taken) := by
  intro q hq
  have hq0 : openDegree edges taken q = 0 := by
    rcases List.mem_cons.1 hq with rfl | hq
    · exact hopen
    · exact h q hq
  have := openDegree_cons hp q edges
  omega

/-- No edge leads from the first ready position to a taken one or to itself: it would have been open
there. -/
theorem Frontier.Tracks.target_notMem {keys : List κ} {edges : List (Nat × Nat)} {taken : List Nat}
    {frontier : Frontier κ} {key : κ} {p : Nat} {ready : List (κ × Nat)}
    (h : frontier.Tracks keys edges taken []) (hclosed : Closed edges taken)
    (hready : frontier.ready = (key, p) :: ready) : ∀ t ∈ targetsOf edges p, t ∉ p :: taken := by
  obtain ⟨-, hp, hopen, -⟩ := h.ready (key, p) (hready ▸ List.mem_cons_self)
  intro t ht hmem
  obtain ⟨⟨s, t'⟩, hst, rfl⟩ := List.mem_map.1 ht
  obtain ⟨hedge, hs⟩ := List.mem_filter.1 hst
  obtain rfl : s = p := by simpa using hs
  refine hp (mem_of_openDegree_eq_zero ?_ hedge)
  rcases List.mem_cons.1 hmem with heq | hmem
  · exact (congrArg (openDegree edges taken) heq).trans hopen
  · exact hclosed _ hmem

/-- When the first ready position is taken, the edges out of it are due. -/
theorem Frontier.Tracks.pop {keys : List κ} {edges : List (Nat × Nat)} {taken : List Nat}
    {frontier : Frontier κ} {key : κ} {p : Nat} {ready : List (κ × Nat)}
    (h : frontier.Tracks keys edges taken []) (hready : frontier.ready = (key, p) :: ready) :
    Frontier.Tracks keys edges (p :: taken) (targetsOf edges p) { frontier with ready } := by
  obtain ⟨hlt, hp, hopen, -⟩ := h.ready (key, p) (hready ▸ List.mem_cons_self)
  have hdistinct := h.distinct
  rw [hready, List.map_cons, List.nodup_cons] at hdistinct
  refine ⟨h.size, fun q hq => ?_, fun entry he => ?_, hdistinct.2⟩
  · rw [h.counter q hq, openDegree_cons hp q edges]
    simp
  · obtain ⟨hlt', hnot, hzero, -⟩ := h.ready entry (hready ▸ List.mem_cons_of_mem _ he)
    have hne : entry.2 ≠ p := fun heq => hdistinct.1 (List.mem_map.2 ⟨entry, he, heq⟩)
    have hsum := openDegree_cons hp entry.2 edges
    rw [hzero] at hsum
    refine ⟨hlt', by simp [hne, hnot], Nat.eq_zero_of_add_eq_zero_right hsum.symm,
      List.count_eq_zero.1 (Nat.eq_zero_of_add_eq_zero_left hsum.symm)⟩

/-- Taking the first ready position and releasing the edges out of it keeps track. -/
theorem Frontier.Tracks.take [Ord κ] {keys : List κ} {edges : List (Nat × Nat)} {taken : List Nat}
    {frontier : Frontier κ} {key : κ} {p : Nat} {ready : List (κ × Nat)}
    (h : frontier.Tracks keys edges taken []) (hclosed : Closed edges taken)
    (hready : frontier.ready = (key, p) :: ready) :
    ((targetsOf edges p).foldl (Frontier.release keys) { frontier with ready }).Tracks keys edges
      (p :: taken) [] :=
  (h.pop hready).releaseAll (h.target_notMem hclosed hready)

/-- Positions are taken once each, and behind the sources of all edges into them. -/
theorem take_sound [Ord κ] {keys : List κ} {edges : List (Nat × Nat)} (count : Nat) :
    ∀ {taken : List Nat} {frontier : Frontier κ}, frontier.Tracks keys edges taken [] →
      Closed edges taken →
      (Graph.take keys edges count frontier).Nodup ∧
      (∀ p ∈ Graph.take keys edges count frontier, p < keys.length ∧ p ∉ taken) ∧
      ∀ before p after, Graph.take keys edges count frontier = before ++ p :: after →
        ∀ s, (s, p) ∈ edges → s ∈ before ∨ s ∈ taken := by
  induction count with
  | zero => intro taken frontier _ _; simp [Graph.take]
  | succ count ih =>
    intro taken frontier h hclosed
    unfold Graph.take
    split
    · simp
    · next key p ready hready =>
      obtain ⟨hlt, hp, hopen, -⟩ := h.ready (key, p) (hready ▸ List.mem_cons_self)
      obtain ⟨hnodup, hmem, hord⟩ := ih (h.take hclosed hready) (hclosed.cons hp hopen)
      refine ⟨List.nodup_cons.2 ⟨fun hin => ?_, hnodup⟩, fun q hq => ?_, ?_⟩
      · exact (hmem p hin).2 List.mem_cons_self
      · rcases List.mem_cons.1 hq with rfl | hq
        · exact ⟨hlt, hp⟩
        · exact ⟨(hmem q hq).1, fun hin => (hmem q hq).2 (List.mem_cons_of_mem _ hin)⟩
      · intro before q after heq s hs
        cases before with
        | nil =>
          obtain ⟨rfl, -⟩ := List.cons.inj heq
          exact .inr (mem_of_openDegree_eq_zero hopen hs)
        | cons b before =>
          obtain ⟨rfl, htail⟩ := List.cons.inj heq
          rcases hord before q after htail s hs with hin | hin
          · exact .inl (List.mem_cons_of_mem _ hin)
          · rcases List.mem_cons.1 hin with rfl | hin
            · exact .inl List.mem_cons_self
            · exact .inr hin

/-- At the start the ready positions are those without edges into them. -/
theorem perm_ready_initial [Ord κ] (keys : List κ) (edges : List (Nat × Nat)) :
    (Frontier.initial keys edges).ready.Perm
      (keys.zipIdx.filter fun entry => inDegree edges entry.2 = 0) := by
  rw [Frontier.initial]
  induction keys.zipIdx with
  | nil => exact .refl _
  | cons entry entries ih =>
    rw [List.foldr_cons, List.filter_cons]
    by_cases h0 : inDegree edges entry.2 = 0
    · simpa [h0] using (perm_insertReady entry _).trans (ih.cons entry)
    · simpa [h0] using ih

/-- The frontier at the start keeps track with nothing taken. -/
theorem tracks_initial [Ord κ] (keys : List κ) (edges : List (Nat × Nat)) :
    (Frontier.initial keys edges).Tracks keys edges [] [] := by
  have hready := perm_ready_initial keys edges
  refine ⟨by simp [Frontier.initial], fun q hq => ?_, fun entry he => ?_, ?_⟩
  · simp [Frontier.initial, openDegree_nil, hq]
  · obtain ⟨hin, hzero⟩ := List.mem_filter.1 (hready.mem_iff.1 he)
    have hlt := List.snd_lt_of_mem_zipIdx hin
    exact ⟨by simpa using hlt, by simp, by simpa [openDegree_nil] using hzero, by simp⟩
  · refine (hready.map (·.2)).nodup_iff.2 ?_
    refine List.Nodup.sublist (List.filter_sublist.map _) ?_
    rw [List.zipIdx_map_snd]
    exact List.nodup_range'

/-- Every position that is neither taken nor waits for an edge is ready. -/
def Frontier.Offers (keys : List κ) (edges : List (Nat × Nat)) (taken due : List Nat)
    (frontier : Frontier κ) : Prop :=
  ∀ q, q < keys.length → q ∉ taken → openDegree edges taken q + due.count q = 0 →
    q ∈ frontier.ready.map (·.2)

/-- The frontier at the start offers all positions without edges into them. -/
theorem offers_initial [Ord κ] (keys : List κ) (edges : List (Nat × Nat)) :
    (Frontier.initial keys edges).Offers keys edges [] [] := by
  intro q hq _ hopen
  have hzero : inDegree edges q = 0 := by simpa [openDegree_nil] using hopen
  rw [((perm_ready_initial keys edges).map (·.2)).mem_iff, List.mem_map]
  exact ⟨(keys[q], q), List.mem_filter.2 ⟨List.mk_mem_zipIdx_iff_getElem?.2 (by simp [hq]),
    by simpa using hzero⟩, rfl⟩

/-- Releasing an edge makes its target ready if that was the last one. -/
theorem Frontier.Offers.release [Ord κ] {keys : List κ} {edges : List (Nat × Nat)}
    {taken due : List Nat} {t : Nat} {frontier : Frontier κ}
    (htracks : frontier.Tracks keys edges taken (t :: due))
    (h : frontier.Offers keys edges taken (t :: due)) :
    (frontier.release keys t).Offers keys edges taken due := by
  intro q hq hnot hopen
  by_cases hqt : t = q
  · subst hqt
    -- The counter of the target was one, so it is zero now.
    have hzero : (frontier.counters.modify t (· - 1))[t]? = some 0 := by
      rw [Array.getElem?_modify, htracks.counter t hq, if_pos rfl]
      simp
      omega
    have hkey : keys[t]? = some keys[t] := List.getElem?_eq_getElem hq
    simp only [Frontier.release, hzero, hkey]
    rw [((perm_insertReady _ _).map (·.2)).mem_iff]
    exact List.mem_cons_self
  · have hready := h q hq hnot (by rwa [List.count_cons_of_ne hqt])
    simp only [Frontier.release]
    split
    · rw [((perm_insertReady _ _).map (·.2)).mem_iff]
      exact List.mem_cons_of_mem _ hready
    · exact hready

/-- Releasing all due edges makes every target ready that waits for none. -/
theorem Frontier.Offers.releaseAll [Ord κ] {keys : List κ} {edges : List (Nat × Nat)}
    {taken due : List Nat} {frontier : Frontier κ} (hd : ∀ t ∈ due, t ∉ taken)
    (htracks : frontier.Tracks keys edges taken due) (h : frontier.Offers keys edges taken due) :
    (due.foldl (Frontier.release keys) frontier).Offers keys edges taken [] := by
  induction due generalizing frontier with
  | nil => exact h
  | cons t due ih =>
    exact ih (fun u hu => hd u (List.mem_cons_of_mem _ hu))
      (htracks.release (hd t List.mem_cons_self)) (h.release htracks)

/-- Taking the first ready position and releasing the edges out of it offers what waits for none. -/
theorem Frontier.Offers.take [Ord κ] {keys : List κ} {edges : List (Nat × Nat)} {taken : List Nat}
    {frontier : Frontier κ} {key : κ} {p : Nat} {ready : List (κ × Nat)}
    (htracks : frontier.Tracks keys edges taken []) (hclosed : Closed edges taken)
    (h : frontier.Offers keys edges taken []) (hready : frontier.ready = (key, p) :: ready) :
    ((targetsOf edges p).foldl (Frontier.release keys) { frontier with ready }).Offers keys edges
      (p :: taken) [] := by
  obtain ⟨-, hp, -, -⟩ := htracks.ready (key, p) (hready ▸ List.mem_cons_self)
  refine Frontier.Offers.releaseAll (htracks.target_notMem hclosed hready) (htracks.pop hready)
    fun q hq hnot hopen => ?_
  rw [List.mem_cons, not_or] at hnot
  have hmem := h q hq hnot.2 (by rw [openDegree_cons hp q edges, hopen]; rfl)
  rw [hready, List.map_cons, List.mem_cons] at hmem
  exact hmem.resolve_left hnot.1

/-- If the search ends early, each position that is left has an open edge from one that is left. -/
theorem exists_open_of_length_lt [Ord κ] {keys : List κ} {edges : List (Nat × Nat)} (count : Nat) :
    ∀ {taken : List Nat} {frontier : Frontier κ}, frontier.Tracks keys edges taken [] →
      Closed edges taken → frontier.Offers keys edges taken [] →
      (Graph.take keys edges count frontier).length < count → ∀ q, q < keys.length → q ∉ taken →
        q ∉ Graph.take keys edges count frontier →
        ∃ s, (s, q) ∈ edges ∧ s ∉ taken ∧ s ∉ Graph.take keys edges count frontier := by
  induction count with
  | zero => intro taken frontier _ _ _ hlen; simp at hlen
  | succ count ih =>
    intro taken frontier htracks hclosed hoffers hlen q hq hnot hleft
    cases hready : frontier.ready with
    | nil =>
      have hopen : openDegree edges taken q ≠ 0 := fun hzero => by
        have := hoffers q hq hnot (by simpa using hzero)
        simp [hready] at this
      obtain ⟨⟨s, q'⟩, hedge, hs⟩ := List.countP_pos_iff.1 (Nat.pos_of_ne_zero hopen)
      simp only [Bool.and_eq_true, beq_iff_eq, Bool.not_eq_true', List.contains_eq_mem,
        decide_eq_false_iff_not] at hs
      obtain ⟨rfl, hs⟩ := hs
      exact ⟨s, hedge, hs, by simp [Graph.take, hready]⟩
    | cons entry ready =>
      obtain ⟨key, p⟩ := entry
      obtain ⟨-, hp, hopen, -⟩ := htracks.ready (key, p) (hready ▸ List.mem_cons_self)
      simp only [Graph.take, hready, List.length_cons, List.mem_cons, not_or] at hlen hleft ⊢
      obtain ⟨s, hedge, hs, hrest⟩ := ih (htracks.take hclosed hready) (hclosed.cons hp hopen)
        (hoffers.take htracks hclosed hready) (by omega) q hq (by simp [hleft.1, hnot]) hleft.2
      rw [List.mem_cons, not_or] at hs
      exact ⟨s, hedge, hs.2, hs.1, hrest⟩

end

/-! ## The order -/

section
variable {α κ : Type} [DecidableEq α] [Ord κ] {nodes : List (α × κ)} {edges : List (α × α)}
  {order : List α}

/-- An order is that of a list of all positions, each behind the sources of the edges into it. -/
theorem exists_positions_of_topologicalOrder (h : topologicalOrder nodes edges = some order) :
    ∃ positions : List Nat, positions.Perm (List.range nodes.length) ∧
      order = positions.filterMap (fun position => (nodes[position]?).map (·.1)) ∧
      ∀ before p after, positions = before ++ p :: after →
        ∀ s, (s, p) ∈ positionedEdges (nodes.map (·.1)) edges → s ∈ before := by
  rw [topologicalOrder] at h
  split at h
  · next hlen =>
    obtain ⟨hnodup, hmem, hord⟩ := take_sound nodes.length
      (tracks_initial (nodes.map (·.2)) (positionedEdges (nodes.map (·.1)) edges))
      (fun q hq => absurd hq List.not_mem_nil)
    refine ⟨_, ?_, (Option.some.inj h).symm, fun before p after heq s hs => ?_⟩
    · refine (hnodup.subperm fun p hp => ?_).perm_of_length_le (by simp [hlen])
      simpa using (hmem p hp).1
    · simpa using hord before p after heq s hs
  · cases h

/-- Looking up all positions of a list gives the list. -/
theorem filterMap_range_getElem? {β γ : Type} (f : β → γ) (l : List β) :
    (List.range l.length).filterMap (fun i => (l[i]?).map f) = l.map f := by
  induction l with
  | nil => rfl
  | cons b l ih =>
    rw [List.length_cons, List.range_succ_eq_map, List.filterMap_cons, List.filterMap_map]
    simpa [Function.comp_def] using ih

/-- An order lists every node as often as it was given. -/
theorem topologicalOrder_perm (h : topologicalOrder nodes edges = some order) :
    order.Perm (nodes.map (·.1)) := by
  obtain ⟨positions, hperm, rfl, -⟩ := exists_positions_of_topologicalOrder h
  exact filterMap_range_getElem? (·.1) nodes ▸ hperm.filterMap _

/-- The source of an edge stands before its target. -/
theorem sublist_of_topologicalOrder (h : topologicalOrder nodes edges = some order)
    {a b : α} (hab : (a, b) ∈ edges) (ha : a ∈ nodes.map (·.1)) (hb : b ∈ nodes.map (·.1)) :
    [a, b].Sublist order := by
  obtain ⟨positions, hperm, rfl, hord⟩ := exists_positions_of_topologicalOrder h
  obtain ⟨i, j, hij, hi, hj⟩ := exists_mem_positionedEdges hab ha hb
  have hjlt : j < nodes.length := by
    simpa using (List.getElem?_eq_some_iff.1 hj).1
  obtain ⟨before, after, rfl⟩ := List.append_of_mem (hperm.mem_iff.2 (List.mem_range.2 hjlt))
  have hibefore := hord before j after rfl i hij
  have hsub : [i, j].Sublist (before ++ j :: after) :=
    (List.singleton_sublist.2 hibefore).append (List.cons_sublist_cons.2 (List.nil_sublist _))
  rw [List.getElem?_map] at hi hj
  have := hsub.filterMap (fun position => (nodes[position]?).map (·.1))
  simp only [List.filterMap_cons, List.filterMap_nil, hi, hj] at this
  exact this

open Relation in
/-- If each of some nodes has an edge from another one of them, there is a cycle. -/
theorem exists_cycle_of_sources {r : Nat → Nat → Prop} {n : Nat} {left : Nat → Prop}
    (hleft : ∀ q, left q → q < n ∧ ∃ s, left s ∧ r s q) {q : Nat} (hq : left q) :
    ∃ p, TransGen r p p := by
  by_contra hnone
  have hstrict : IsStrictOrder Nat (TransGen r) :=
    { irrefl := fun p hp => hnone ⟨p, hp⟩, trans := fun _ _ _ => TransGen.trans }
  have hfinite : {q | left q}.Finite :=
    (Set.finite_Iio n).subset fun q hq => (hleft q hq).1
  -- A first one of them has an edge from an earlier one.
  refine (hfinite.wellFoundedOn (r := TransGen r)).induction (P := fun _ => False) hq ?_
  intro first hfirst hbefore
  obtain ⟨-, s, hs, hedge⟩ := hleft first hfirst
  exact hbefore s hs (.single hedge)

open Relation in
/-- Without a cycle there is an order. -/
theorem exists_topologicalOrder (nodes : List (α × κ)) (edges : List (α × α))
    (hacyclic : ∀ p, ¬ TransGen (fun i j => (i, j) ∈ positionedEdges (nodes.map (·.1)) edges) p p) :
    ∃ order, topologicalOrder nodes edges = some order := by
  rw [topologicalOrder]
  split
  · exact ⟨_, rfl⟩
  · next hlen =>
    exfalso
    obtain ⟨hnodup, hmem, -⟩ := take_sound nodes.length
      (tracks_initial (nodes.map (·.2)) (positionedEdges (nodes.map (·.1)) edges))
      (fun q hq => absurd hq List.not_mem_nil)
    have hopen := exists_open_of_length_lt nodes.length
      (tracks_initial (nodes.map (·.2)) (positionedEdges (nodes.map (·.1)) edges))
      (fun q hq => absurd hq List.not_mem_nil) (offers_initial _ _)
    generalize Graph.take (nodes.map (·.2)) (positionedEdges (nodes.map (·.1)) edges) nodes.length
      (Frontier.initial (nodes.map (·.2)) (positionedEdges (nodes.map (·.1)) edges)) = positions
      at hlen hnodup hmem hopen
    simp only [List.length_map, List.not_mem_nil, not_false_eq_true, true_and, and_true,
      forall_const] at hmem hopen
    have hsub : positions.Subperm (List.range nodes.length) :=
      hnodup.subperm fun p hp => List.mem_range.2 (hmem p hp)
    have hle := hsub.length_le
    rw [List.length_range] at hle
    obtain ⟨q, hq, hnot⟩ : ∃ q < nodes.length, q ∉ positions := by
      by_contra hall
      push Not at hall
      have := (List.nodup_range.subperm fun q hq => hall q (List.mem_range.1 hq)).length_le
      rw [List.length_range] at this
      exact hlen (Nat.le_antisymm hle this)
    have hsources : ∀ q, q < nodes.length ∧ q ∉ positions → q < nodes.length ∧
        ∃ s, (s < nodes.length ∧ s ∉ positions) ∧
          (s, q) ∈ positionedEdges (nodes.map (·.1)) edges := by
      rintro q ⟨hq, hnot⟩
      obtain ⟨s, hedge, hs⟩ := hopen (by omega) q hq hnot
      obtain ⟨_, _, -, hi, -⟩ := exists_of_mem_positionedEdges hedge
      have := (List.getElem?_eq_some_iff.1 hi).1
      exact ⟨hq, s, ⟨by simpa using this, hs⟩, hedge⟩
    obtain ⟨p, hp⟩ := exists_cycle_of_sources hsources ⟨hq, hnot⟩
    exact hacyclic p hp

end

end SchemaMigration.Graph
