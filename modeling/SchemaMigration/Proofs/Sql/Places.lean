import SchemaMigration.Sql.References

/-!
# Places in syntax trees

Every part of a text is a `Node`, and `Node.parts` are the nodes right below it. A node first has
mentions of its own and then those of its parts (`Node.mentions_eq`). A `Place` is a node of a tree
with the nodes around it and those passed on the way to it: a mention of the tree is one of a node
in it (`Node.mem_mentions_iff`), and what is mentioned before a node are the own mentions of the
nodes around it and all mentions of those passed (`Node.Has.split`, `Node.exists_place`).
-/

namespace SchemaMigration.Sql

/-- The name of a binding, as names are compared. -/
def Binding.key : Binding → String
  | .mk name _ => Text.lowerAscii name

/-- A node of the syntax tree of a text. -/
inductive Node where
  | text (statements : List Statement)
  | statement (statement : Statement)
  | binding (binding : Binding)
  | query (query : Query)
  | body (body : Body)
  | select (select : Select)
  | item (item : Item)
  | joined (joined : Joined)
  | join (join : Join)
  | source (source : Source)
  | expr (expr : Expr)

namespace Node

variable {n part : Node} {m : Mention}

/-- The nodes right below a node, in the order in which their names count as mentioned. -/
def parts : Node → List Node
  | text statements => statements.map statement
  | statement (.query q) => [query q]
  | statement (.insert _ rows operands returning) =>
    rows.toList.map query ++ operands.map expr ++ returning.map item
  | statement (.update table values tables condition returning) =>
    joined table :: values.map expr ++ tables.map joined ++ condition.map expr ++
      returning.map item
  | statement (.delete tables condition returning modifiers) =>
    tables.map joined ++ condition.map expr ++ returning.map item ++ modifiers.map expr
  | statement (.command operands) => operands.map expr
  | binding (.mk _ q) => [query q]
  | query (.mk bindings b modifiers) => bindings.map binding ++ body b :: modifiers.map expr
  | body (.select s) => [select s]
  | body (.query q) => [query q]
  | body (.combined left right) => [body left, body right]
  | body (.rows values) => values.map expr
  | body .named => []
  | body (.change s) => [statement s]
  | select (.mk before items tables after) =>
    before.map expr ++ items.map item ++ tables.map joined ++ after.map expr
  | item (.value e) => [expr e]
  | item (.all replacements) | item (.allOf _ replacements) => replacements.map expr
  | joined (.mk first joins) => source first :: joins.map join
  | join (.mk s conditions) => source s :: conditions.map expr
  | source (.table _ _ operands) | source (.computed operands) => operands.map expr
  | source (.derived q) => [query q]
  | source (.nested tables) => [joined tables]
  | source (.pivoted s operands) => source s :: operands.map expr
  | expr (.column _) => []
  | expr (.call _ operands) | expr (.operation operands) => operands.map expr
  | expr (.subquery q) => [query q]
  | expr (.source s) => [source s]
  | expr (.statement s) => [statement s]

/-- What a node mentions. -/
def mentions : Node → List Mention
  | text statements => statements.flatMap Statement.mentions
  | statement s => s.mentions
  | binding b => b.mentions
  | query q => q.mentions
  | body b => b.mentions
  | select s => s.mentions
  | item i => i.mentions
  | joined j => j.mentions
  | join j => j.mentions
  | source s => s.mentions
  | expr e => e.mentions

/-- The names that a node itself binds by `WITH`. -/
def bound : Node → List String
  | query (.mk bindings _ _) => bindings.map Binding.key
  | _ => []

/-- The table that a node itself names. -/
def table? : Node → Option (List String)
  | source (.table name _ _) => some name
  | statement (.insert name _ _ _) => some name
  | _ => none

/-- What a node mentions apart from its parts. -/
def ownMentions : Node → List Mention
  | query (.mk bindings b _) =>
    bindings.map (.binding ·.key) ++ b.wildcards.map .wildcard
  | statement (.insert table _ _ _) => [.relation table]
  | source (.table name _ _) => [.relation name]
  | expr (.column path) => (path.getLast?.map Mention.column).toList
  | expr (.call name _) => [.function name]
  | _ => []

/-! ## Mentions by parts -/

/-- A function on lists that adds up what its elements mention. -/
theorem eq_flatMap {α : Type} {f : α → List Mention} {g : List α → List Mention}
    (hnil : g [] = []) (hcons : ∀ a l, g (a :: l) = f a ++ g l) : g = List.flatMap f := by
  funext l
  induction l with
  | nil => exact hnil
  | cons a l ih => rw [hcons, ih, List.flatMap_cons]

/-- A node first has mentions of its own and then those of its parts. -/
theorem mentions_eq (n : Node) : n.mentions = n.ownMentions ++ n.parts.flatMap mentions := by
  have hexpr := eq_flatMap (g := Expr.mentionsList) Expr.mentionsList.eq_1 Expr.mentionsList.eq_2
  have hjoined :=
    eq_flatMap (g := Joined.mentionsList) Joined.mentionsList.eq_1 Joined.mentionsList.eq_2
  have hjoin := eq_flatMap (g := Join.mentionsList) Join.mentionsList.eq_1 Join.mentionsList.eq_2
  have hitem := eq_flatMap (g := Item.mentionsList) Item.mentionsList.eq_1 Item.mentionsList.eq_2
  have hbinding :=
    eq_flatMap (g := Binding.mentionsList) Binding.mentionsList.eq_1 Binding.mentionsList.eq_2
  cases n with
  | text statements => simp [mentions, ownMentions, parts, List.flatMap_map]
  | statement s =>
    obtain _ | ⟨_, _ | _, _, _⟩ | _ | _ | _ := s <;>
      simp [mentions, ownMentions, parts, Statement.mentions, List.flatMap_map, *]
  | binding b => cases b; simp [mentions, ownMentions, parts, Binding.mentions]
  | query q =>
    cases q
    simp only [mentions, ownMentions, parts, Query.mentions, List.flatMap_map, List.flatMap_append,
      List.flatMap_cons, List.append_assoc, *]
    exact congrArg (· ++ _) (List.map_congr_left fun ⟨_, _⟩ _ => rfl)
  | body b => cases b <;> simp [mentions, ownMentions, parts, Body.mentions, List.flatMap_map, *]
  | select s => cases s; simp [mentions, ownMentions, parts, Select.mentions, List.flatMap_map, *]
  | item i => cases i <;> simp [mentions, ownMentions, parts, Item.mentions, List.flatMap_map, *]
  | joined j => cases j; simp [mentions, ownMentions, parts, Joined.mentions, List.flatMap_map, *]
  | join j => cases j; simp [mentions, ownMentions, parts, Join.mentions, List.flatMap_map, *]
  | source s =>
    cases s <;> simp [mentions, ownMentions, parts, Source.mentions, List.flatMap_map, *]
  | expr e => cases e <;> simp [mentions, ownMentions, parts, Expr.mentions, List.flatMap_map, *]

theorem binding_mem_ownMentions {key : String} :
    .binding key ∈ n.ownMentions ↔ key ∈ n.bound := by
  cases n with
  | query q => cases q; simp [ownMentions, bound]
  | statement s => cases s <;> simp [ownMentions, bound]
  | source s => cases s <;> simp [ownMentions, bound]
  | expr e => cases e <;> simp [ownMentions, bound]
  | _ => simp [ownMentions, bound]

theorem relation_mem_ownMentions {path : List String} :
    .relation path ∈ n.ownMentions ↔ n.table? = some path := by
  cases n with
  | query q => cases q; simp [ownMentions, table?]
  | statement s => cases s <;> simp [ownMentions, table?, eq_comm]
  | source s => cases s <;> simp [ownMentions, table?, eq_comm]
  | expr e => cases e <;> simp [ownMentions, table?]
  | _ => simp [ownMentions, table?]

/-! ## Induction over parts -/

/-- Nodes that stem from a list are no larger than the list. -/
theorem sizeOf_le_of_mem_map {α : Type} [SizeOf α] {f : α → Node} {l : List α}
    (hf : ∀ a, sizeOf (f a) = 1 + sizeOf a) (h : part ∈ l.map f) : sizeOf part ≤ sizeOf l := by
  obtain ⟨a, ha, rfl⟩ := List.mem_map.1 h
  have hlt := List.sizeOf_lt_of_mem ha
  rw [hf]
  omega

/-- The parts of a node are smaller than the node. -/
theorem sizeOf_part_lt (h : part ∈ n.parts) : sizeOf part < sizeOf n := by
  have hstatement {l : List Statement} : part ∈ l.map statement → sizeOf part ≤ sizeOf l :=
    sizeOf_le_of_mem_map fun _ => rfl
  have hbinding {l : List Binding} : part ∈ l.map binding → sizeOf part ≤ sizeOf l :=
    sizeOf_le_of_mem_map fun _ => rfl
  have hitem {l : List Item} : part ∈ l.map item → sizeOf part ≤ sizeOf l :=
    sizeOf_le_of_mem_map fun _ => rfl
  have hjoined {l : List Joined} : part ∈ l.map joined → sizeOf part ≤ sizeOf l :=
    sizeOf_le_of_mem_map fun _ => rfl
  have hjoin {l : List Join} : part ∈ l.map join → sizeOf part ≤ sizeOf l :=
    sizeOf_le_of_mem_map fun _ => rfl
  have hexpr {l : List Expr} : part ∈ l.map expr → sizeOf part ≤ sizeOf l :=
    sizeOf_le_of_mem_map fun _ => rfl
  have hrows {rows : Option Query} (h : part ∈ rows.toList.map query) :
      sizeOf part ≤ sizeOf rows := by
    cases rows <;> simp_all
  fun_cases parts n <;>
    simp only [parts, List.mem_append, List.mem_cons, List.not_mem_nil, or_false] at h <;>
    grind [-List.mem_map]

/-- What follows for a node from its parts holds of every node. -/
theorem induct {P : Node → Prop} (h : ∀ n, (∀ part ∈ n.parts, P part) → P n) (n : Node) : P n :=
  h n fun part _ => induct h part
termination_by sizeOf n
decreasing_by exact sizeOf_part_lt ‹_›

end Node

/-! ## Places -/

/-- A node of a tree with the nodes around it and those passed on the way to it. -/
structure Place where
  around : List Node
  passed : List Node
  node : Node

/-- What is mentioned before a place: by the nodes around it themselves, and anywhere in those that
were passed. -/
def Place.Before (p : Place) (m : Mention) : Prop :=
  (∃ n ∈ p.around, m ∈ n.ownMentions) ∨ ∃ n ∈ p.passed, m ∈ n.mentions

/-- What is mentioned before a place further in: by the node around itself, in what is passed there,
and before the place in its part. -/
theorem Place.before_inside {n : Node} {front : List Node} {p : Place} {m : Mention} :
    (Place.mk (n :: p.around) (front ++ p.passed) p.node).Before m ↔
      m ∈ n.ownMentions ∨ m ∈ front.flatMap Node.mentions ∨ p.Before m := by
  simp only [Place.Before, List.mem_append, List.mem_flatMap, List.mem_cons, or_and_right,
    exists_or, exists_eq_left]
  simp only [or_assoc, or_left_comm]

namespace Node

/-- The places in the tree below a node. -/
inductive Has : Node → Place → Prop
  | here (n : Node) : n.Has ⟨[], [], n⟩
  | inside {n part : Node} {front rest : List Node} {p : Place}
      (hparts : n.parts = front ++ part :: rest) (h : part.Has p) :
      n.Has ⟨n :: p.around, front ++ p.passed, p.node⟩

variable {n : Node} {p : Place} {m : Mention}

/-- A node with some property stands in a tree at its root or in a part. -/
theorem exists_has_iff {P : Node → Prop} : (∃ p, n.Has p ∧ P p.node) ↔
    P n ∨ ∃ part ∈ n.parts, ∃ p, part.Has p ∧ P p.node := by
  constructor
  · rintro ⟨p, hp, hnode⟩
    cases hp with
    | here => exact .inl hnode
    | inside hparts hp => exact .inr ⟨_, by simp [hparts], _, hp, hnode⟩
  · rintro (hnode | ⟨part, hpart, p, hp, hnode⟩)
    · exact ⟨_, .here n, hnode⟩
    · obtain ⟨front, rest, hparts⟩ := List.append_of_mem hpart
      exact ⟨_, .inside hparts hp, hnode⟩

/-- What a tree mentions is what some node in it mentions itself. -/
theorem mem_mentions_iff (n : Node) :
    m ∈ n.mentions ↔ ∃ p, n.Has p ∧ m ∈ p.node.ownMentions := by
  induction n using induct with
  | h n ih =>
    rw [mentions_eq, List.mem_append, List.mem_flatMap, exists_has_iff (P := (m ∈ ·.ownMentions))]
    exact or_congr_right (exists_congr fun part => and_congr_right (ih part))

/-- A tree mentions before a place what is mentioned around it and what is passed. -/
theorem Has.split (h : n.Has p) :
    ∃ before after, n.mentions = before ++ p.node.mentions ++ after ∧
      ∀ m, m ∈ before ↔ p.Before m := by
  induction h with
  | here n => exact ⟨[], [], by simp, by simp [Place.Before]⟩
  | @inside n part front rest p hparts _ ih =>
    obtain ⟨before, after, hsplit, hbefore⟩ := ih
    refine ⟨n.ownMentions ++ front.flatMap mentions ++ before, after ++ rest.flatMap mentions,
      ?_, fun m => ?_⟩
    · rw [mentions_eq, hparts, List.flatMap_append, List.flatMap_cons, hsplit]
      simp only [List.append_assoc]
    · rw [Place.before_inside, List.mem_append, List.mem_append, hbefore, or_assoc]

/-- An element of two lists in a row is one of the first list or of the second one. -/
theorem append_eq_append_cons {α : Type} {a : α} {l m before after : List α}
    (h : l ++ m = before ++ a :: after) :
    (∃ rest, l = before ++ a :: rest) ∨ ∃ front, before = l ++ front ∧ m = front ++ a :: after := by
  obtain ⟨front, rfl, hm⟩ | ⟨rest, rfl, hrest⟩ := List.append_eq_append_iff.1 h
  · exact .inr ⟨front, rfl, hm⟩
  · cases rest with
    | nil => exact .inr ⟨[], by simp, hrest.symm⟩
    | cons b rest =>
      obtain ⟨rfl, -⟩ := List.cons.inj hrest
      exact .inl ⟨rest, rfl⟩

/-- An element of lists in a row is one of a certain list. -/
theorem flatMap_eq_append_cons {α β : Type} {f : α → List β} {b : β} {after : List β} :
    ∀ {l : List α} {before : List β}, l.flatMap f = before ++ b :: after →
      ∃ front a rest first last, l = front ++ a :: rest ∧ f a = first ++ b :: last ∧
        before = front.flatMap f ++ first
  | [], before, h => by simp at h
  | a :: l, before, h => by
    rw [List.flatMap_cons] at h
    obtain ⟨last, ha⟩ | ⟨front, rfl, hl⟩ := append_eq_append_cons h
    · exact ⟨[], a, l, before, last, rfl, ha, rfl⟩
    · obtain ⟨fronts, c, rest, first, last, rfl, hc, rfl⟩ := flatMap_eq_append_cons hl
      exact ⟨a :: fronts, c, rest, first, last, rfl, hc, by simp⟩

/-- Whatever a tree mentions, it mentions at a place: what comes before is mentioned before the
place, or earlier by the node there. -/
theorem exists_place (n : Node) : ∀ {before after : List Mention},
    n.mentions = before ++ m :: after →
      ∃ p earlier rest, n.Has p ∧ p.node.ownMentions = earlier ++ m :: rest ∧
        ∀ x, x ∈ before ↔ p.Before x ∨ x ∈ earlier := by
  induction n using induct with
  | h n ih =>
    intro before after hsplit
    rw [mentions_eq] at hsplit
    obtain ⟨rest, hown⟩ | ⟨inner, rfl, hinner⟩ := append_eq_append_cons hsplit
    · exact ⟨_, before, rest, .here n, hown, by simp [Place.Before]⟩
    · obtain ⟨front, part, rest, first, last, hparts, hpart, rfl⟩ := flatMap_eq_append_cons hinner
      obtain ⟨p, earlier, others, hp, hown, hfirst⟩ := ih part (by simp [hparts]) hpart
      refine ⟨_, earlier, others, .inside hparts hp, hown, fun x => ?_⟩
      rw [Place.before_inside, List.mem_append, List.mem_append, hfirst]
      simp only [or_assoc]

end Node

end SchemaMigration.Sql
