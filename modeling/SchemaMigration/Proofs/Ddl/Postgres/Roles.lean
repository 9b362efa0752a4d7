import Mathlib.Data.Set.Insert
import SchemaMigration.Proofs.Ddl.Alteration
import SchemaMigration.Proofs.Plan.Steps

/-!
# Attributes of roles

An option of a role switches an attribute on or off (`toggle`). The options of a role leave certain
attributes in force (`inForce`), and so does a clause of `ALTER ROLE`, which is an option again
(`applyOption`). The clauses that are written say of an attribute what the new options say and the
old ones do not, and switch off what is not among the new options any more (`says_clauses`), so they
lead from the attributes in force under the old options to those under the new ones. But an
attribute that is switched off in either way comes in two clauses if it is both in force under the
old options and off by name in the new ones, and only then (`role_reached`).
-/

namespace SchemaMigration.Ddl.Postgres

/-! ## What options say -/

/-- The attribute that an option is about, and whether the option switches it on. -/
def toggle (option : String) : String × Bool :=
  match negatableOptions.find? fun name => "NO" ++ name = option with
  | some name => (name, false)
  | none => (option, true)

/-- The attribute that an option is about. -/
def attributeOf (option : String) : String := (toggle option).1

/-- Options switch an attribute on, or off. -/
def Says (options : List String) (name : String) (on : Bool) : Prop :=
  (name, on) ∈ options.map toggle

/-- The attributes in force under options: what is not named is off. -/
def inForce (options : List String) : Set String :=
  {name | Says options name true ∧ ¬ Says options name false}

/-- An attribute is in force exactly if the options switch it on and not off. -/
theorem mem_inForce {options : List String} {name : String} :
    name ∈ inForce options ↔ Says options name true ∧ ¬ Says options name false :=
  .rfl

/-- The attributes in force after one more option. -/
def applyOption (attributes : Set String) (option : String) : Set String :=
  match toggle option with
  | (name, true) => insert name attributes
  | (name, false) => attributes \ {name}

/-- The option that switches an attribute on or off. -/
def optionText : String × Bool → String
  | (name, true) => name
  | (name, false) => "NO" ++ name

/-- An option is known by what it says. -/
@[simp] theorem optionText_toggle (option : String) : optionText (toggle option) = option := by
  unfold toggle
  split
  · next hfound => exact of_decide_eq_true (List.find?_some hfound :)
  · rfl

/-- Options that say the same are the same. -/
theorem toggle_injective : Function.Injective toggle :=
  Function.LeftInverse.injective optionText_toggle

/-- What can be negated is switched on by its name and off by its negation. -/
theorem toggle_of_negatable : ∀ name ∈ negatableOptions,
    toggle name = (name, true) ∧ toggle ("NO" ++ name) = (name, false) := by
  decide +kernel

variable {options : List String} {name : String} {on : Bool}

/-- Options that name each attribute at most once do not contradict each other. -/
theorem not_says_both (h : (options.map attributeOf).Nodup) (hon : Says options name true) :
    ¬ Says options name false := fun hoff => by
  obtain ⟨first, hfirst, hfirstSays⟩ := List.mem_map.1 hon
  obtain ⟨second, hsecond, hsecondSays⟩ := List.mem_map.1 hoff
  have hsame : attributeOf first = attributeOf second := by
    rw [attributeOf, attributeOf, hfirstSays, hsecondSays]
  obtain rfl := List.inj_on_of_nodup_map h hfirst hsecond hsame
  simp [hfirstSays] at hsecondSays

/-- An attribute is in force after one more option if that switches it on, or if it was so before
and the option does not switch it off. -/
theorem mem_applyOption {option : String} {attributes : Set String} :
    name ∈ applyOption attributes option ↔
      toggle option = (name, true) ∨ name ∈ attributes ∧ toggle option ≠ (name, false) := by
  unfold applyOption
  split
  · next other hother => simp [hother, eq_comm]
  · next other hother => simp [hother, eq_comm]

/-- Of several options the first one says something, or the others do. -/
theorem says_cons {option : String} :
    Says (option :: options) name on ↔ toggle option = (name, on) ∨ Says options name on := by
  rw [Says, List.map_cons, List.mem_cons, eq_comm, Says]

/-- After options that do not contradict each other, the attributes are in force that they switch
on, and of the others those that were so before and that they do not switch off. -/
theorem mem_foldl_applyOption (hagree : ∀ name, Says options name true → ¬ Says options name false)
    (attributes : Set String) :
    name ∈ options.foldl applyOption attributes ↔
      Says options name true ∨ name ∈ attributes ∧ ¬ Says options name false := by
  induction options generalizing attributes with
  | nil => simp [Says]
  | cons option options ih =>
    have hothers : ∀ name, Says options name true → ¬ Says options name false :=
      fun name hon hoff => hagree name (says_cons.2 (.inr hon)) (says_cons.2 (.inr hoff))
    have hagree := hagree name
    rw [says_cons, says_cons] at hagree
    rw [List.foldl_cons, ih hothers, mem_applyOption, says_cons, says_cons]
    tauto

/-! ## What the clauses say -/

variable {before after : RoleDefinition} {clauses : List RoleClause}

/-- The options of a role that another one does not have. -/
def onlyOptions (role other : RoleDefinition) : List String :=
  (roleOptions role).filter fun option => !(roleOptions other).contains option

/-- An option is only among those of the one role if it is not among those of the other one. -/
theorem mem_onlyOptions {role other : RoleDefinition} {option : String} :
    option ∈ onlyOptions role other ↔ option ∈ roleOptions role ∧ option ∉ roleOptions other := by
  simp [onlyOptions]

/-- No option of a role is listed twice. -/
theorem nodup_roleOptions (role : RoleDefinition) : (roleOptions role).Nodup :=
  (List.mergeSort_perm _ _).nodup_iff.2 (nodup_eraseDups _)

/-- There are no clauses exactly if something is gone that cannot be negated. -/
theorem roleClauses?_eq_none_iff :
    roleClauses? before after = none ↔
      ∃ option ∈ onlyOptions before after, option ∉ negatableOptions := by
  change (if (onlyOptions before after).all negatableOptions.contains then some _ else none) = _ ↔ _
  simp

/-- The clauses are the options that are new and the negations of those that are gone. -/
theorem map_render_of_roleClauses? (h : roleClauses? before after = some clauses) :
    (∀ option ∈ onlyOptions before after, option ∈ negatableOptions) ∧
      clauses.map RoleClause.render =
        onlyOptions after before ++ (onlyOptions before after).map ("NO" ++ ·) := by
  change (if (onlyOptions before after).all negatableOptions.contains then
    some ((onlyOptions after before).map RoleClause.add ++
      (onlyOptions before after).map RoleClause.negate) else none) = some clauses at h
  split at h
  case isFalse => cases h
  case isTrue hgone =>
    obtain rfl := Option.some.inj h
    refine ⟨fun option hoption => List.contains_iff_mem.1 (List.all_eq_true.1 hgone option hoption),
      ?_⟩
    rw [List.map_append, List.map_map, List.map_map]
    exact congrArg (· ++ _) (List.map_id _)

/-- What the options say that only one role has is what this role says and the other one does
not. -/
theorem says_onlyOptions {role other : RoleDefinition} :
    Says (onlyOptions role other) name on ↔
      Says (roleOptions role) name on ∧ ¬ Says (roleOptions other) name on := by
  constructor
  · intro h
    obtain ⟨option, hin, hsays⟩ := List.mem_map.1 h
    obtain ⟨hrole, hother⟩ := mem_onlyOptions.1 hin
    refine ⟨List.mem_map.2 ⟨option, hrole, hsays⟩, fun h => hother ?_⟩
    rw [Says, ← hsays, List.mem_map_of_injective toggle_injective] at h
    exact h
  · rintro ⟨h, hother⟩
    obtain ⟨option, hin, hsays⟩ := List.mem_map.1 h
    exact List.mem_map.2 ⟨option, mem_onlyOptions.2 ⟨hin, fun h => hother
      (List.mem_map.2 ⟨option, h, hsays⟩)⟩, hsays⟩

/-- Among options that can all be negated are those attributes that they switch on. -/
theorem mem_iff_says (h : ∀ option ∈ options, option ∈ negatableOptions) :
    name ∈ options ↔ Says options name true := by
  refine ⟨fun hin => List.mem_map.2 ⟨name, hin, (toggle_of_negatable name (h name hin)).1⟩,
    fun hsays => ?_⟩
  obtain ⟨option, hin, hon⟩ := List.mem_map.1 hsays
  rw [(toggle_of_negatable option (h option hin)).1] at hon
  exact (Prod.mk.inj hon).1 ▸ hin

/-- What the clauses say of an attribute is what the new options say of it and the old ones do not;
and they switch off what the old options switch on and the new ones do not. -/
theorem says_clauses (h : roleClauses? before after = some clauses) :
    Says (clauses.map RoleClause.render) name on ↔
      Says (roleOptions after) name on ∧ ¬ Says (roleOptions before) name on ∨
        on = false ∧ Says (roleOptions before) name true ∧
          ¬ Says (roleOptions after) name true := by
  obtain ⟨hgone, hrender⟩ := map_render_of_roleClauses? h
  rw [hrender, Says, List.map_append, List.mem_append, ← Says, says_onlyOptions, ← says_onlyOptions,
    ← says_onlyOptions, ← mem_iff_says hgone, List.map_map, List.mem_map]
  refine or_congr_right ⟨?_, ?_⟩
  · rintro ⟨option, hin, hsays⟩
    obtain ⟨rfl, rfl⟩ := Prod.mk.inj
      ((toggle_of_negatable option (hgone option hin)).2.symm.trans hsays)
    exact ⟨rfl, hin⟩
  · rintro ⟨rfl, hin⟩
    exact ⟨name, hin, (toggle_of_negatable name (hgone name hin)).2⟩

/-- Where there are clauses, no attribute that is off by name is unnamed afterwards. -/
theorem says_off_of_roleClauses? (h : roleClauses? before after = some clauses)
    (hoff : Says (roleOptions before) name false) : Says (roleOptions after) name false := by
  by_contra hafter
  obtain ⟨hgone, -⟩ := map_render_of_roleClauses? h
  obtain ⟨option, hin, hsays⟩ := List.mem_map.1 (says_onlyOptions.2 ⟨hoff, hafter⟩)
  rw [(toggle_of_negatable option (hgone option hin)).1] at hsays
  simp at hsays

/-- The clauses lead from the attributes in force under the old options to those under the new
ones. -/
theorem foldl_clauses (h : roleClauses? before after = some clauses)
    (honce : ((roleOptions after).map attributeOf).Nodup) :
    (clauses.map RoleClause.render).foldl applyOption (inForce (roleOptions before)) =
      inForce (roleOptions after) := by
  have hnew : ∀ name, Says (roleOptions after) name true → ¬ Says (roleOptions after) name false :=
    fun _ => not_says_both honce
  have hclauses : ∀ name, Says (clauses.map RoleClause.render) name true →
      ¬ Says (clauses.map RoleClause.render) name false := fun name => by
    rw [says_clauses h, says_clauses h]
    have := hnew name
    tauto
  ext name
  rw [mem_foldl_applyOption hclauses, says_clauses h, says_clauses h]
  have hthis := hnew name
  have hoff : Says (roleOptions before) name false → Says (roleOptions after) name false :=
    says_off_of_roleClauses? h
  rw [mem_inForce, mem_inForce]
  tauto

/-- An attribute is named exactly if something is said of it. -/
theorem mem_map_attributeOf :
    name ∈ options.map attributeOf ↔ Says options name true ∨ Says options name false := by
  constructor
  · intro h
    obtain ⟨option, hin, rfl⟩ := List.mem_map.1 h
    cases hon : (toggle option).2 with
    | true => exact .inl (List.mem_map.2 ⟨option, hin, Prod.ext rfl hon⟩)
    | false => exact .inr (List.mem_map.2 ⟨option, hin, Prod.ext rfl hon⟩)
  · rintro (h | h) <;> obtain ⟨option, hin, hsays⟩ := List.mem_map.1 h
    · exact List.mem_map.2 ⟨option, hin, congrArg Prod.fst hsays⟩
    · exact List.mem_map.2 ⟨option, hin, congrArg Prod.fst hsays⟩

/-- The clauses name an attribute twice exactly if it is in force under the old options and switched
off by name in the new ones. -/
theorem nodup_clauses_iff (h : roleClauses? before after = some clauses)
    (honce : ((roleOptions after).map attributeOf).Nodup) :
    ((clauses.map RoleClause.render).map attributeOf).Nodup ↔
      ∀ name ∈ inForce (roleOptions before), ¬ Says (roleOptions after) name false := by
  obtain ⟨hgone, hrender⟩ := map_render_of_roleClauses? h
  have hnegated : ((onlyOptions before after).map ("NO" ++ ·)).map attributeOf =
      onlyOptions before after := by
    rw [List.map_map]
    exact (List.map_congr_left (g := id) fun option hin =>
      congrArg Prod.fst (toggle_of_negatable option (hgone option hin)).2).trans (List.map_id _)
  have hadded : ((onlyOptions after before).map attributeOf).Nodup :=
    honce.sublist (List.filter_sublist.map _)
  have hlost : (onlyOptions before after).Nodup := (nodup_roleOptions before).filter _
  rw [hrender, List.map_append, hnegated, List.nodup_append']
  simp only [hadded, hlost, true_and, List.disjoint_left, mem_iff_says hgone, mem_map_attributeOf,
    says_onlyOptions, mem_inForce]
  refine forall_congr' fun name => ?_
  have := fun hon : Says (roleOptions after) name true => not_says_both honce hon
  tauto

/-! ## From the old attributes to the new ones -/

variable {old s : Statement}

/-- A role whose new options name each attribute at most once is created anew exactly if something
is gone that cannot be negated. Otherwise it is altered by at most one statement, whose clauses lead
from the attributes in force under the old options to those under the new ones. They name each
attribute at most once exactly if the new options switch off by name none of the attributes in force
under the old ones. -/
theorem role_reached (old s : Statement) (hold : old.definition = .role before)
    (hnew : s.definition = .role after) (honce : ((roleOptions after).map attributeOf).Nodup) :
    (alter old s = .recreate ↔
      ∃ option ∈ roleOptions before, option ∉ roleOptions after ∧ option ∉ negatableOptions) ∧
    (alter old s ≠ .recreate → ∃ clauses, roleClauses? before after = some clauses ∧
      let texts := clauses.map RoleClause.render
      (Decision.ofAlteration (alter old s)).statements =
          (if texts = [] then []
            else ["ALTER ROLE " ++ qualified s.id ++ " WITH " ++ Text.join " " texts]) ++
          remarkStatements old s ∧
        texts.foldl applyOption (inForce (roleOptions before)) = inForce (roleOptions after) ∧
        ((texts.map attributeOf).Nodup ↔
          ∀ name ∈ inForce (roleOptions before), ¬ Says (roleOptions after) name false)) := by
  have hchanges : definitionChanges? old.definition s =
      (roleClauses? before after).map fun clauses =>
        oneStatement ("ALTER ROLE " ++ qualified s.id ++ " WITH ")
          (clauses.map RoleClause.render) := by
    simp only [definitionChanges?, hold, hnew]
  refine ⟨?_, fun halter => ?_⟩
  · rw [alter_eq_recreate, hchanges, Option.map_eq_none_iff, roleClauses?_eq_none_iff]
    simp only [mem_onlyOptions, and_assoc]
  · have hfound := mt alter_eq_recreate.2 halter
    rw [hchanges, Option.map_eq_none_iff] at hfound
    obtain ⟨clauses, hclauses⟩ := Option.ne_none_iff_exists'.1 hfound
    rw [hclauses, Option.map_some] at hchanges
    refine ⟨clauses, hclauses, ?_, foldl_clauses hclauses honce, nodup_clauses_iff hclauses honce⟩
    rw [statements_alter hchanges, oneStatement]
    simp only [List.isEmpty_iff]
    split <;> rfl

/-- A role that reads. -/
def reader (options : List String) : Statement where
  id := ⟨.role, ["reader"]⟩
  parent := some .database
  definition := .role { options }

/-- Two attributes are switched on or off by name and a third one is gone; what has no negation
cannot go. -/
theorem reader_reached :
    let before : List String := ["CREATEDB", "LOGIN"]
    let after : List String := ["login", "noinherit", "superuser"]
    ((roleOptions { options := after }).map attributeOf).Nodup ∧
      (Decision.ofAlteration (alter (reader before) (reader after))).statements =
        ["ALTER ROLE reader WITH NOINHERIT SUPERUSER NOCREATEDB"] ∧
      ["NOINHERIT", "SUPERUSER", "NOCREATEDB"].foldl applyOption (inForce ["CREATEDB", "LOGIN"]) =
        inForce ["LOGIN", "NOINHERIT", "SUPERUSER"] ∧
      (["NOINHERIT", "SUPERUSER", "NOCREATEDB"].map attributeOf).Nodup ∧
      (∀ name ∈ inForce ["CREATEDB", "LOGIN"],
        ¬ Says ["LOGIN", "NOINHERIT", "SUPERUSER"] name false) ∧
      alter (reader ["CONNECTION LIMIT 5"]) (reader after) = .recreate := by
  intro before after
  have hbefore : roleOptions { options := before } = ["CREATEDB", "LOGIN"] :=
    (List.mergeSort_of_pairwise (by decide +kernel)).trans (by decide +kernel)
  have hafter : roleOptions { options := after } = ["LOGIN", "NOINHERIT", "SUPERUSER"] :=
    (List.mergeSort_of_pairwise (by decide +kernel)).trans (by decide +kernel)
  have honce : ((roleOptions { options := after }).map attributeOf).Nodup := by
    rw [hafter]
    decide +kernel
  have hfound : roleClauses? { options := before } { options := after } =
      some [.add "NOINHERIT", .add "SUPERUSER", .negate "CREATEDB"] := by
    rw [roleClauses?, hbefore, hafter]
    decide +kernel
  have hanew := (role_reached (reader ["CONNECTION LIMIT 5"]) (reader after) rfl rfl honce).1.2
    ⟨"CONNECTION LIMIT 5", by decide +kernel, by rw [hafter]; decide +kernel, by decide +kernel⟩
  obtain ⟨hrecreate, hreached⟩ := role_reached (reader before) (reader after) rfl rfl honce
  rw [hbefore, hafter] at hrecreate hreached
  obtain ⟨clauses, hclauses, hstatements, happlied, hnodup⟩ :=
    hreached (mt hrecreate.1 (by decide +kernel))
  obtain rfl := Option.some.inj (hclauses.symm.trans hfound)
  have htwice : (["NOINHERIT", "SUPERUSER", "NOCREATEDB"].map attributeOf).Nodup := by
    decide +kernel
  exact ⟨honce, hstatements.trans (by decide +kernel), happlied, htwice, hnodup.1 htwice, hanew⟩

/-- An attribute is in force and switched off by name, and both differences name it. -/
theorem login_switched_off_twice :
    ((roleOptions { options := ["NOLOGIN"] }).map attributeOf).Nodup ∧
      roleClauses? { options := ["LOGIN"] } { options := ["NOLOGIN"] } =
        some [.add "NOLOGIN", .negate "LOGIN"] ∧
      (Decision.ofAlteration (alter (reader ["LOGIN"]) (reader ["NOLOGIN"]))).statements =
        ["ALTER ROLE reader WITH NOLOGIN NOLOGIN"] ∧
      ¬ (([.add "NOLOGIN", .negate "LOGIN"].map RoleClause.render).map attributeOf).Nodup := by
  refine ⟨?_, ?_, ?_, ?_⟩ <;> decide +kernel

end SchemaMigration.Ddl.Postgres
