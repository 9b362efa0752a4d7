import SchemaMigration.Proofs.Graph.Completeness

/-!
# The canonical order

Among all orders of distinct nodes that respect the edges, the search gives the smallest, where
orders are compared place by place, by the keys of the nodes and for equal keys by their positions
in the list (`topologicalOrder_eq_some_iff`). The ready positions are sorted (`Frontier.Sorted`),
and all that wait for none are among them (`Frontier.Offers`). So where another order leaves the
search, the position that it goes to was ready, too, but behind the one that is taken
(`take_least`).

What respects the edges is said by which nodes are linked. So neither the order of the edges nor
their repetition shows in the result (`topologicalOrder_canonical`).
-/

namespace SchemaMigration.Graph

/-! ## Sorted frontiers -/

section
variable {κ : Type} [Ord κ]

/-- The comparison by key, then by position. -/
def compareEntries (a b : κ × Nat) : Ordering := (compare a.1 b.1).then (compare a.2 b.2)

variable [Std.TransOrd κ]

instance : Std.TransCmp (@compareEntries κ _) :=
  inferInstanceAs (Std.TransCmp (compareLex (compareOn Prod.fst) (compareOn Prod.snd)))

/-- Entries are put in order transitively. -/
theorem precedes_trans {a b c : κ × Nat} (hab : precedes a b = true) (hbc : precedes b c = true) :
    precedes a c = true :=
  show (compareEntries a c).isLE = true from Std.TransCmp.isLE_trans hab hbc

/-- Of two entries one precedes the other. -/
theorem precedes_of_not_precedes {a b : κ × Nat} (h : ¬ precedes a b = true) :
    precedes b a = true := by
  have hlt : compareEntries b a = .lt := Std.OrientedCmp.lt_of_not_isLE h
  exact Ordering.isLE_iff_eq_lt_or_eq_eq.2 (.inl hlt)

omit [Std.TransOrd κ] in
/-- An entry that precedes another position is smaller. -/
theorem compareEntries_eq_lt {a b : κ × Nat} (h : precedes a b = true) (hne : a.2 ≠ b.2) :
    compareEntries a b = .lt := by
  refine (Ordering.isLE_iff_eq_lt_or_eq_eq.1 h).resolve_right fun heq => hne ?_
  exact Nat.compare_eq_eq.1 (Ordering.then_eq_eq.1 heq).2

/-- The ready positions are sorted and have the keys of their nodes. -/
structure Frontier.Sorted (keys : List κ) (frontier : Frontier κ) : Prop where
  sorted : frontier.ready.Pairwise fun a b => precedes a b = true
  keyed : ∀ entry ∈ frontier.ready, keys[entry.2]? = some entry.1

/-- Sorted entries stay sorted when one is inserted. -/
theorem pairwise_insertReady (entry : κ × Nat) : ∀ {ready : List (κ × Nat)},
    ready.Pairwise (fun a b => precedes a b = true) →
      (insertReady entry ready).Pairwise fun a b => precedes a b = true
  | [], _ => List.pairwise_singleton _ _
  | other :: rest, h => by
    obtain ⟨hother, hrest⟩ := List.pairwise_cons.1 h
    unfold insertReady
    split
    · next hle =>
      refine List.pairwise_cons.2 ⟨fun b hb => ?_, h⟩
      rcases List.mem_cons.1 hb with rfl | hb
      · exact hle
      · exact precedes_trans hle (hother b hb)
    · next hnot =>
      refine List.pairwise_cons.2 ⟨fun b hb => ?_, pairwise_insertReady entry hrest⟩
      rcases List.mem_cons.1 ((perm_insertReady entry rest).mem_iff.1 hb) with rfl | hb
      · exact precedes_of_not_precedes hnot
      · exact hother b hb

/-- Inserting a position with its key keeps a frontier sorted. -/
theorem Frontier.Sorted.insert {keys : List κ} {entry : κ × Nat} {ready : List (κ × Nat)}
    {counters counters' : Array Nat} (h : Frontier.Sorted keys ⟨ready, counters⟩)
    (hkey : keys[entry.2]? = some entry.1) :
    Frontier.Sorted keys ⟨insertReady entry ready, counters'⟩ := by
  refine ⟨pairwise_insertReady entry h.sorted, fun other hother => ?_⟩
  rcases List.mem_cons.1 ((perm_insertReady entry ready).mem_iff.1 hother) with rfl | hother
  · exact hkey
  · exact h.keyed other hother

/-- The frontier at the start is sorted. -/
theorem sorted_initial (keys : List κ) (edges : List (Nat × Nat)) :
    (Frontier.initial keys edges).Sorted keys := by
  have hkeys : ∀ entry ∈ keys.zipIdx, keys[entry.2]? = some entry.1 := fun entry hentry =>
    List.mem_zipIdx_iff_getElem?.1 hentry
  rw [Frontier.initial]
  revert hkeys
  induction keys.zipIdx with
  | nil => exact fun _ => ⟨.nil, fun _ hentry => absurd hentry List.not_mem_nil⟩
  | cons entry entries ih =>
    intro hkeys
    have hsorted := ih fun other hother => hkeys other (List.mem_cons_of_mem _ hother)
    rw [List.foldr_cons]
    split
    · exact hsorted.insert (hkeys entry List.mem_cons_self)
    · exact hsorted

/-- Releasing an edge keeps the frontier sorted. -/
theorem Frontier.Sorted.release {keys : List κ} {frontier : Frontier κ} (t : Nat)
    (h : frontier.Sorted keys) : (frontier.release keys t).Sorted keys := by
  rw [Frontier.release]
  split
  · next hkey => exact h.insert hkey
  · exact ⟨h.sorted, h.keyed⟩

/-- Taking the first ready position and releasing the edges out of it keeps the frontier sorted. -/
theorem Frontier.Sorted.take {keys : List κ} {frontier : Frontier κ} {entry : κ × Nat}
    {ready : List (κ × Nat)} (h : frontier.Sorted keys) (hready : frontier.ready = entry :: ready)
    (targets : List Nat) :
    (targets.foldl (Frontier.release keys) { frontier with ready }).Sorted keys := by
  obtain ⟨hsorted, hkeyed⟩ := h
  rw [hready] at hsorted hkeyed
  have hrest : Frontier.Sorted keys { frontier with ready } :=
    ⟨(List.pairwise_cons.1 hsorted).2, fun other hother =>
      hkeyed other (List.mem_cons_of_mem _ hother)⟩
  generalize { frontier with ready } = rest at hrest
  induction targets generalizing rest with
  | nil => exact hrest
  | cons t targets ih => exact ih _ (hrest.release t)

/-! ## The search against other orders -/

/-- The keys at some positions, with the positions. -/
def entriesAt (keys : List κ) (positions : List Nat) : List (κ × Nat) :=
  positions.filterMap fun position => keys[position]?.map (·, position)

omit [Ord κ] [Std.TransOrd κ] in
/-- A position of the list has an entry. -/
theorem entriesAt_cons {keys : List κ} {key : κ} {p : Nat} (h : keys[p]? = some key)
    (positions : List Nat) :
    entriesAt keys (p :: positions) = (key, p) :: entriesAt keys positions := by
  simp [entriesAt, h]

/-- Whatever has been taken, the rest of the search is smaller than any other way to take the
positions that are left behind the sources of all edges into them. -/
theorem take_least {keys : List κ} {edges : List (Nat × Nat)} (count : Nat) :
    ∀ {taken rest : List Nat} {frontier : Frontier κ}, frontier.Tracks keys edges taken [] →
      Closed edges taken → frontier.Offers keys edges taken [] → frontier.Sorted keys →
      rest.Nodup → (∀ p, p ∈ rest ↔ p < keys.length ∧ p ∉ taken) → rest.length ≤ count →
      (∀ before p after, rest = before ++ p :: after →
        ∀ s, (s, p) ∈ edges → s ∈ before ∨ s ∈ taken) →
      rest = Graph.take keys edges count frontier ∨
        List.compareLex compareEntries (entriesAt keys (Graph.take keys edges count frontier))
          (entriesAt keys rest) = .lt := by
  induction count with
  | zero =>
    intro taken rest frontier _ _ _ _ _ _ hlength _
    exact .inl (List.length_eq_zero_iff.1 (Nat.le_zero.1 hlength))
  | succ count ih =>
    intro taken rest frontier htracks hclosed hoffers hsorted hnodup hrest hlength hord
    cases rest with
    | nil =>
      -- Nothing is left, so nothing is ready.
      refine .inl ?_
      cases hready : frontier.ready with
      | nil => simp [Graph.take, hready]
      | cons entry ready =>
        obtain ⟨hlt, hnot, -⟩ := htracks.ready entry (hready ▸ List.mem_cons_self)
        exact absurd ((hrest entry.2).2 ⟨hlt, hnot⟩) List.not_mem_nil
    | cons other rest =>
      -- What the other order takes first waits for none but taken positions, so it is ready.
      obtain ⟨hother, hothernot⟩ := (hrest other).1 List.mem_cons_self
      have hopen : openDegree edges taken other = 0 := openDegree_eq_zero fun s hs =>
        (hord [] other rest rfl s hs).resolve_left List.not_mem_nil
      obtain ⟨⟨otherKey, q⟩, hentry, hq⟩ :=
        List.mem_map.1 (hoffers other hother hothernot (by simpa using hopen))
      obtain rfl : q = other := hq
      have hotherKey : keys[q]? = some otherKey := hsorted.keyed _ hentry
      cases hready : frontier.ready with
      | nil => simp [hready] at hentry
      | cons entry ready =>
        obtain ⟨key, p⟩ := entry
        obtain ⟨-, hp, hpopen, -⟩ := htracks.ready (key, p) (hready ▸ List.mem_cons_self)
        have hkey : keys[p]? = some key := hsorted.keyed (key, p) (hready ▸ List.mem_cons_self)
        simp only [Graph.take, hready]
        rw [entriesAt_cons hkey, entriesAt_cons hotherKey, List.compareLex_cons_cons]
        by_cases hpq : p = q
        · subst hpq
          obtain rfl : otherKey = key := Option.some.inj (hotherKey.symm.trans hkey)
          obtain ⟨hnotin, hnodup⟩ := List.nodup_cons.1 hnodup
          have hsame : compareEntries (otherKey, p) (otherKey, p) = .eq := Std.ReflCmp.compare_self
          rw [hsame, List.cons_inj_right]
          refine ih (htracks.take hclosed hready) (hclosed.cons hp hpopen)
            (hoffers.take htracks hclosed hready) (hsorted.take hready _) hnodup (fun r => ?_)
            (Nat.le_of_succ_le_succ hlength) fun before r after heq s hs => ?_
          · have := hrest r
            rw [List.mem_cons] at this ⊢
            by_cases hrp : r = p
            · subst hrp
              simp [hnotin]
            · simpa [hrp] using this
          · have := hord (p :: before) r after (by rw [heq]; rfl) s hs
            simpa [or_assoc, or_comm, or_left_comm] using this
        · -- The search takes another one that is ready, which is smaller.
          have hbehind : (otherKey, q) ∈ ready :=
            (List.mem_cons.1 (hready ▸ hentry)).resolve_left fun hsame =>
              hpq (Prod.mk.inj hsame).2.symm
          have hpairs := hsorted.sorted
          rw [hready] at hpairs
          rw [compareEntries_eq_lt (List.rel_of_pairwise_cons hpairs hbehind) hpq]
          exact .inr rfl

end

/-! ## The smallest order -/

section
variable {α κ : Type} [DecidableEq α]

/-- An order of nodes that respects every edge between them. -/
structure Arranges (nodes : List α) (edges : List (α × α)) (order : List α) : Prop where
  perm : order.Perm nodes
  respects : ∀ a b, Linked nodes edges a b → order.idxOf a < order.idxOf b

/-- The key of a node with its position in the list. -/
def placed? (nodes : List (α × κ)) (a : α) : Option (κ × Nat) :=
  let position := (nodes.map (·.1)).idxOf a
  nodes[position]?.map fun node => (node.2, position)

/-- The comparison of two orders, place by place. -/
def compareOrders [Ord κ] (nodes : List (α × κ)) (order other : List α) : Ordering :=
  List.compareLex compareEntries (order.filterMap (placed? nodes)) (other.filterMap (placed? nodes))

/-- The entries of nodes are those at their positions. -/
theorem filterMap_placed? (nodes : List (α × κ)) (order : List α) :
    order.filterMap (placed? nodes) =
      entriesAt (nodes.map (·.2)) (order.map (nodes.map (·.1)).idxOf) := by
  rw [entriesAt, List.filterMap_map]
  refine List.filterMap_congr fun a _ => ?_
  simp [placed?, Function.comp_def]

/-! ### Positions of distinct nodes -/

section
variable {names : List α}

/-- The node at the position of a listed node is that node. -/
theorem getElem?_idxOf {a : α} (ha : a ∈ names) : names[names.idxOf a]? = some a := by
  rw [List.getElem?_eq_getElem (List.idxOf_lt_length_iff.2 ha), List.getElem_idxOf]

/-- Listed nodes are known by their positions. -/
theorem eq_of_map_idxOf_eq {order other : List α} (horder : ∀ a ∈ order, a ∈ names)
    (hother : ∀ a ∈ other, a ∈ names) (h : order.map names.idxOf = other.map names.idxOf) :
    order = other := by
  have hback : ∀ {l : List α}, (∀ a ∈ l, a ∈ names) →
      (l.map names.idxOf).filterMap (names[·]?) = l := fun {l} hl => by
    rw [List.filterMap_map]
    exact (List.filterMap_congr fun a ha => getElem?_idxOf (hl a ha)).trans List.filterMap_some
  rw [← hback horder, h, hback hother]

/-- Distinct nodes have all positions, in order. -/
theorem map_idxOf_self (hdistinct : names.Nodup) :
    names.map names.idxOf = List.range names.length := by
  refine List.ext_getElem (by simp) fun i _ _ => ?_
  rw [List.getElem_map, List.getElem_range, hdistinct.idxOf_getElem]

/-- What has a smaller index than another element stands in front of it. -/
theorem mem_of_idxOf_lt {a b : α} {before after : List α}
    (h : (before ++ b :: after).idxOf a < (before ++ b :: after).idxOf b) : a ∈ before := by
  by_contra hnot
  rw [List.idxOf_append_of_notMem hnot] at h
  by_cases hb : b ∈ before
  · rw [List.idxOf_append_of_mem hb] at h
    have := List.idxOf_lt_length_iff.2 hb
    omega
  · rw [List.idxOf_append_of_notMem hb, List.idxOf_cons_self] at h
    omega

variable {edges : List (α × α)} {order : List α}

/-- An order that respects the edges has the sources of all edges into a position before it. -/
theorem Arranges.mem_before (hdistinct : names.Nodup) (h : Arranges names edges order)
    {before after : List Nat} {p s : Nat} (horder : order.map names.idxOf = before ++ p :: after)
    (hs : (s, p) ∈ positionedEdges names edges) : s ∈ before := by
  obtain ⟨front, rest, rfl, rfl, hrest⟩ := List.map_eq_append_iff.1 horder
  obtain ⟨b, back, rfl, hb, rfl⟩ := List.map_eq_cons_iff.1 hrest
  obtain ⟨a, b', hab, hsource, htarget⟩ := exists_of_mem_positionedEdges hs
  have hbin : b ∈ names := h.perm.mem_iff.1 (by simp)
  obtain rfl : b = b' := by
    rw [← hb, getElem?_idxOf hbin] at htarget
    exact Option.some.inj htarget
  have hafront : a ∈ front :=
    mem_of_idxOf_lt (h.respects a b ⟨hab, List.mem_of_getElem? hsource, hbin⟩)
  obtain ⟨hlt, rfl⟩ := List.getElem?_eq_some_iff.1 hsource
  exact hdistinct.idxOf_getElem s hlt ▸ List.mem_map_of_mem hafront

end

/-! ### The search -/

variable [Ord κ] {nodes : List (α × κ)} {edges : List (α × α)} {order : List α}

/-- The positions of an order that the search gives are those that it takes. -/
theorem map_idxOf_of_topologicalOrder (hdistinct : (nodes.map (·.1)).Nodup)
    (h : topologicalOrder nodes edges = some order) :
    order.map (nodes.map (·.1)).idxOf =
      let links := positionedEdges (nodes.map (·.1)) edges
      take (nodes.map (·.2)) links nodes.length (.initial (nodes.map (·.2)) links) := by
  obtain ⟨-, hmem, -⟩ := take_sound nodes.length
    (tracks_initial (nodes.map (·.2)) (positionedEdges (nodes.map (·.1)) edges))
    (fun q hq => absurd hq List.not_mem_nil)
  rw [topologicalOrder] at h
  split at h
  · obtain rfl := Option.some.inj h
    rw [List.map_filterMap]
    refine (List.filterMap_congr fun p hp => ?_).trans List.filterMap_some
    have hlt : p < (nodes.map (·.1)).length := by simpa using (hmem p hp).1
    rw [← List.getElem?_map, List.getElem?_eq_getElem hlt, Option.map_some,
      hdistinct.idxOf_getElem]
  · cases h

/-- An order that the search gives respects the edges. -/
theorem arranges_of_topologicalOrder (hdistinct : (nodes.map (·.1)).Nodup)
    (h : topologicalOrder nodes edges = some order) :
    Arranges (nodes.map (·.1)) edges order :=
  ⟨topologicalOrder_perm h, fun _ _ => idxOf_lt_of_topologicalOrder hdistinct h⟩

variable [Std.TransOrd κ]

/-- An order that the search gives is smaller than any other one that respects the edges. -/
theorem topologicalOrder_lt (hdistinct : (nodes.map (·.1)).Nodup)
    (h : topologicalOrder nodes edges = some order) {other : List α}
    (hother : Arranges (nodes.map (·.1)) edges other) (hne : other ≠ order) :
    compareOrders nodes order other = .lt := by
  have hperm : (other.map (nodes.map (·.1)).idxOf).Perm (List.range nodes.length) := by
    have := hother.perm.map (nodes.map (·.1)).idxOf
    rwa [map_idxOf_self hdistinct, List.length_map] at this
  have hleast := take_least nodes.length
    (tracks_initial (nodes.map (·.2)) (positionedEdges (nodes.map (·.1)) edges))
    (fun q hq => absurd hq List.not_mem_nil) (offers_initial _ _) (sorted_initial _ _)
    (hperm.nodup_iff.2 List.nodup_range) (fun p => by simp [hperm.mem_iff])
    (by simpa using hperm.length_eq.le)
    fun before p after heq s hs => .inl (hother.mem_before hdistinct heq hs)
  have hpositions := map_idxOf_of_topologicalOrder hdistinct h
  dsimp only at hpositions
  rw [← hpositions] at hleast
  rw [compareOrders, filterMap_placed?, filterMap_placed?]
  refine hleast.resolve_left fun heq => hne (eq_of_map_idxOf_eq ?_ ?_ heq)
  · exact fun a ha => hother.perm.mem_iff.1 ha
  · exact fun a ha => (topologicalOrder_perm h).mem_iff.1 ha

/-- The search gives an order of distinct nodes exactly if that respects the edges and is smaller
than all others that do. -/
theorem topologicalOrder_eq_some_iff (hdistinct : (nodes.map (·.1)).Nodup) :
    topologicalOrder nodes edges = some order ↔
      Arranges (nodes.map (·.1)) edges order ∧
        ∀ other, Arranges (nodes.map (·.1)) edges other → other ≠ order →
          compareOrders nodes order other = .lt := by
  constructor
  · exact fun h => ⟨arranges_of_topologicalOrder hdistinct h,
      fun _ hother => topologicalOrder_lt hdistinct h hother⟩
  · rintro ⟨harranges, hleast⟩
    cases hfound : topologicalOrder nodes edges with
    | none =>
      obtain ⟨a, hcycle⟩ := (topologicalOrder_eq_none_iff hdistinct).1 hfound
      exact absurd hcycle (not_transGen_of_idxOf_lt harranges.respects a)
    | some found =>
      by_contra hne
      have hother : found ≠ order := fun heq => hne (congrArg some heq)
      -- Each of the two would be smaller than the other.
      have hlt := hleast found (arranges_of_topologicalOrder hdistinct hfound) hother
      rw [compareOrders] at hlt
      exact Std.OrientedCmp.not_lt_of_lt hlt
        (topologicalOrder_lt hdistinct hfound harranges hother.symm)

/-- For distinct nodes the search gives an order exactly if that is the smallest of all orders that
respect every edge between listed nodes, by keys and then by positions, place by place. So the order
of the edges and their repetition make no difference. -/
theorem topologicalOrder_canonical (hdistinct : (nodes.map (·.1)).Nodup) :
    (∀ order, topologicalOrder nodes edges = some order ↔
      Arranges (nodes.map (·.1)) edges order ∧
        ∀ other, Arranges (nodes.map (·.1)) edges other → other ≠ order →
          compareOrders nodes order other = .lt) ∧
    ∀ edges', (∀ edge, edge ∈ edges' ↔ edge ∈ edges) →
      topologicalOrder nodes edges' = topologicalOrder nodes edges := by
  refine ⟨fun order => topologicalOrder_eq_some_iff hdistinct, fun edges' hedges => ?_⟩
  have harranges : ∀ order, Arranges (nodes.map (·.1)) edges' order ↔
      Arranges (nodes.map (·.1)) edges order := fun order =>
    ⟨fun h => ⟨h.perm, fun a b hab => h.respects a b ⟨(hedges _).2 hab.1, hab.2⟩⟩,
      fun h => ⟨h.perm, fun a b hab => h.respects a b ⟨(hedges _).1 hab.1, hab.2⟩⟩⟩
  refine Option.ext fun order => ?_
  simp only [topologicalOrder_eq_some_iff hdistinct, harranges]

/-- Two nodes are ready, and the one with the smaller key is taken first, although it stands behind
the other one in the list and in another order that respects the edge. -/
theorem topologicalOrder_canonical_of_two_ready :
    let nodes := [("a", 1), ("b", 0), ("c", 0), ("d", 1)]
    (nodes.map (·.1)).Nodup ∧
      topologicalOrder nodes [("a", "c")] = some ["b", "a", "c", "d"] ∧
      Arranges (nodes.map (·.1)) [("a", "c")] ["a", "c", "b", "d"] ∧
      compareOrders nodes ["b", "a", "c", "d"] ["a", "c", "b", "d"] = .lt ∧
      topologicalOrder nodes [("a", "c"), ("a", "c")] = topologicalOrder nodes [("a", "c")] := by
  intro nodes
  have hdistinct : (nodes.map (·.1)).Nodup := by decide
  have horder : topologicalOrder nodes [("a", "c")] = some ["b", "a", "c", "d"] := by
    decide +kernel
  have hother : Arranges (nodes.map (·.1)) [("a", "c")] ["a", "c", "b", "d"] := by
    refine ⟨by decide, fun a b hab => ?_⟩
    obtain ⟨rfl, rfl⟩ := Prod.mk.inj (List.mem_singleton.1 hab.1)
    decide
  have hleast := ((topologicalOrder_canonical hdistinct).1 _).1 horder
  exact ⟨hdistinct, horder, hother, hleast.2 _ hother (by decide),
    (topologicalOrder_canonical hdistinct).2 _ (by simp)⟩

end

end SchemaMigration.Graph
