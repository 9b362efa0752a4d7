import SchemaMigration.Plan.Treatment
import SchemaMigration.Proofs.Json.SortedMap

/-!
# How statements begin and what alterations consist of

Statements are told apart by how they begin (`Ddl.Apart`): no text begins in both of two ways if
neither begins with the other. The statements of an alteration in place are those of the changes
that it was made for (`Ddl.mem_statements_ofChanges?`), and only it has statements
(`Decision.lists_iff_alters`). In PostgreSQL those about the definition come first, and then those
about the owner and the comment (`Ddl.Postgres.statements_alter`).

Storage parameters are brought to new ones by setting those that differ and resetting those that are
gone (`Ddl.options_reached`).
-/

namespace SchemaMigration

namespace Ddl

/-- No text begins in both of two ways. -/
def Apart (lead other : String) : Prop :=
  ¬ lead.toList <+: other.toList ∧ ¬ other.toList <+: lead.toList

/-- Whether no text begins in both of two ways can be computed. -/
instance (lead other : String) : Decidable (Apart lead other) :=
  inferInstanceAs (Decidable (_ ∧ _))

/-- What begins in one way does not begin in the other. -/
theorem Apart.not_prefix {lead other rest : String} (h : Apart lead other) :
    ¬ lead.toList <+: (other ++ rest).toList := by
  intro hlead
  rw [String.toList_append] at hlead
  exact (List.prefix_or_prefix_of_prefix hlead (List.prefix_append _ _)).elim h.1 h.2

/-- The statements of a decision are those of the changes that it was made for. -/
theorem statements_ofChanges? (changes : Option (List InPlaceChange)) :
    (Decision.ofAlteration (.ofChanges? changes)).statements =
      (changes.getD []).map (·.sql) := by
  cases changes with
  | none => rfl
  | some found =>
    unfold Alteration.ofChanges? Alteration.ofChanges
    dsimp only [Option.getD_some]
    split
    · next hempty => rw [List.isEmpty_iff.1 hempty]; rfl
    · split <;> rfl

/-- What a decision lists is the statement of one of the changes that it was made for. -/
theorem mem_statements_ofChanges? {changes : Option (List InPlaceChange)} {sql : String} :
    sql ∈ (Decision.ofAlteration (.ofChanges? changes)).statements ↔
      ∃ found, changes = some found ∧ ∃ change ∈ found, change.sql = sql := by
  rw [statements_ofChanges?, List.mem_map]
  cases changes with
  | none => simp
  | some found => simp

/-- An object is created anew exactly if there are no changes in place for it. -/
theorem ofChanges?_eq_recreate {changes : Option (List InPlaceChange)} :
    Alteration.ofChanges? changes = .recreate ↔ changes = none := by
  cases changes with
  | none => simp [Alteration.ofChanges?]
  | some found =>
    simp only [Alteration.ofChanges?, Alteration.ofChanges, reduceCtorEq, iff_false]
    split
    · simp
    · split <;> simp

/-- Setting the storage parameters that differ and resetting those that are gone leads from the old
ones to the new ones. -/
theorem options_reached {old new : List (String × String)} (hold : Codec.Sorted old)
    (hnew : Codec.Sorted new) :
    ((Codec.insertAll (setOptions old new) old).filter fun entry =>
      !(goneOptions old new).contains entry.1) = new := by
  have hset : ∀ entry, entry ∈ setOptions old new ↔ entry ∈ new ∧ entry ∉ old := fun entry => by
    rw [setOptions, List.mem_filter, ← hold.lookup_eq_some_iff]
    simp
  have hgone : ∀ name, name ∈ goneOptions old new ↔
      name ∈ old.map Prod.fst ∧ new.lookup name = none := fun name => by
    simp [goneOptions]
  have hkeys : ((setOptions old new).map Prod.fst).Nodup :=
    hnew.nodup_keys.sublist (List.filter_sublist.map _)
  refine Codec.Sorted.eq_of_mem_iff ((hold.insertAll _).filter _) hnew fun (name, value) => ?_
  rw [List.mem_filter, hold.mem_insertAll hkeys, hset, Bool.not_eq_true', ← Bool.not_eq_true,
    List.contains_iff_mem, hgone]
  constructor
  · rintro ⟨⟨hnewIn, -⟩ | ⟨holdIn, hkept⟩, hstays⟩
    · exact hnewIn
    · -- It is not gone, so it has a value, and it is not set, so that is the old one.
      have hfound : new.lookup name ≠ none := fun hnone =>
        hstays ⟨List.mem_map.2 ⟨_, holdIn, rfl⟩, hnone⟩
      obtain ⟨other, hother⟩ := Option.ne_none_iff_exists'.1 hfound
      have hotherIn := hnew.lookup_eq_some_iff.1 hother
      have hin : (name, other) ∈ old := by
        by_contra hnot
        exact hkept (List.mem_map.2 ⟨(name, other), (hset _).2 ⟨hotherIn, hnot⟩, rfl⟩)
      exact List.inj_on_of_nodup_map hold.nodup_keys hin holdIn rfl ▸ hotherIn
  · intro hin
    have hlookup := hnew.lookup_eq_some_iff.2 hin
    refine ⟨?_, fun hnone => by simp [hlookup] at hnone⟩
    by_cases hold' : (name, value) ∈ old
    · refine .inr ⟨hold', fun hkey => ?_⟩
      obtain ⟨entry, hentry, hname⟩ := List.mem_map.1 hkey
      obtain ⟨hentryIn, hentryNot⟩ := (hset entry).1 hentry
      rw [List.inj_on_of_nodup_map hnew.nodup_keys hentryIn hin hname] at hentryNot
      exact hentryNot hold'
    · exact .inl ⟨hin, hold'⟩

namespace Postgres

variable {old s : Statement}

/-- The statements about the owner and the comment where these differ. -/
def remarkStatements (old s : Statement) : List String :=
  (if old.owner ≠ s.owner then (ownerStatement? s).toList else []) ++
    (if old.comment ≠ s.comment then (commentStatement? s).toList else [])

/-- An object is created anew exactly if its definition cannot be changed in place. -/
theorem alter_eq_recreate :
    alter old s = .recreate ↔ definitionChanges? old.definition s = none := by
  rw [alter, ofChanges?_eq_recreate, Option.map_eq_none_iff]

/-- The statements of an alteration are those about the definition, and behind them those about the
owner and the comment. -/
theorem statements_alter {changes : List InPlaceChange}
    (h : definitionChanges? old.definition s = some changes) :
    (Decision.ofAlteration (alter old s)).statements =
      changes.map (·.sql) ++ remarkStatements old s := by
  rw [alter, statements_ofChanges?, h, Option.map_some, Option.getD_some, List.map_append,
    List.map_map, remarkStatements]
  exact congrArg _ (List.map_id _)

end Postgres

end Ddl

/-- Changes in place are decided on with their statements, and everything else without any. -/
theorem Decision.lists_iff_alters (changes : Option (List InPlaceChange)) :
    (ofAlteration (.ofChanges? changes)).statements ≠ [] ↔
      (ofAlteration (.ofChanges? changes)).treatment.alters = true := by
  cases changes with
  | none => simp [Alteration.ofChanges?, ofAlteration, Treatment.alters]
  | some changes =>
    unfold Alteration.ofChanges? Alteration.ofChanges
    dsimp only
    split
    · simp [ofAlteration, Treatment.alters]
    · next hsome =>
      rw [List.isEmpty_iff] at hsome
      split <;> simp [ofAlteration, Treatment.alters, hsome]

/-- Every dialect alters objects by changes in place or creates them anew. -/
theorem Dialect.exists_changes_of_alter {dialect : Dialect} {s t : Statement}
    {alteration : Alteration} (h : dialect.alter s t = .ok alteration) :
    ∃ changes, alteration = .ofChanges? changes := by
  cases dialect with
  | postgres => exact ⟨_, (Except.ok.inj h).symm⟩
  | msSql | clickHouse =>
    simp only [alter, Ddl.MsSql.alter, Ddl.ClickHouse.alter] at h
    split at h
    · cases h
    · exact ⟨_, (Except.ok.inj h).symm⟩

end SchemaMigration
