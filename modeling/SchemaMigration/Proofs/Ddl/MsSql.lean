import SchemaMigration.Ddl.Generator
import SchemaMigration.Proofs.Ddl.Verb

/-!
# Modules in MS SQL

Views, routines and triggers are checked anew by a statement of its own (`Ddl.MsSql.IsRefresh`), or
by stating their definition again. An alteration of such a module states the definition again if it
has changed (`Ddl.MsSql.restates_of_alter`), and does nothing of the sort if only its owner or its
comment has (`Ddl.MsSql.not_isRefresh_of_alter`).
-/

namespace SchemaMigration.Ddl.MsSql

variable {s : Statement} {definition sql : String}

/-- A statement that checks a module anew. -/
def IsRefresh (sql : String) : Prop := "EXEC sys.sp_refreshsqlmodule ".toList <+: sql.toList

/-- The statement that checks a module anew begins as one. -/
theorem isRefresh_of_refresh? (h : refresh? s = some sql) : IsRefresh sql := by
  have hlead : ∀ rest, IsRefresh ("EXEC sys.sp_refreshsqlmodule " ++ rest) := fun rest => by
    rw [IsRefresh, String.toList_append]
    exact List.prefix_append _ _
  unfold refresh? at h
  split at h
  case h_5 => cases h
  all_goals
    obtain rfl := Option.some.inj h
    exact hlead _

/-- What can be checked anew is a module, which stands neither for a column nor for a constraint. -/
theorem kind_of_refresh? (h : refresh? s = some sql) :
    s.kind = .view ∨ s.kind = .function ∨ s.kind = .procedure ∨ s.kind = .trigger := by
  unfold refresh? at h
  split at h <;> simp_all

/-- What can be checked anew has the definition of a module. -/
theorem exists_module?_of_refresh? (htyped : s.definition.kind = s.kind)
    (h : refresh? s = some sql) : ∃ definition, module? s = some definition := by
  have hkind := kind_of_refresh? h
  rw [← htyped] at hkind
  unfold module?
  cases hdefinition : s.definition <;> rw [hdefinition] at hkind <;>
    first | exact ⟨_, rfl⟩ | simp [Definition.kind] at hkind

/-- A module whose definition stays is not changed. -/
theorem definitionChanges?_self (h : module? s = some definition) :
    definitionChanges? s.definition s = some [] := by
  unfold module? at h
  unfold definitionChanges?
  cases hdefinition : s.definition <;> rw [hdefinition] at h <;>
    first | (cases h; done) | simp

/-- A module whose definition changes is created anew, or has its definition stated again. -/
theorem definitionChanges?_ne {before : Definition} (h : module? s = some definition)
    (hkind : before.kind = s.definition.kind) (hne : before ≠ s.definition) :
    definitionChanges? before s = none ∨ ∃ invalidating,
      definitionChanges? before s = some [⟨"ALTER" ++ definition, invalidating⟩] := by
  have hredefinition : ∀ invalidating,
      redefinition s invalidating = [⟨"ALTER" ++ definition, invalidating⟩] := by
    intro invalidating
    rw [redefinition, h]
    rfl
  unfold module? at h
  unfold definitionChanges?
  cases hdefinition : s.definition <;> rw [hdefinition] at h hkind hne <;> dsimp only at h <;>
    first | (cases h; done) | skip
  all_goals
    cases before <;> first | (cases hkind; done) | skip
    have hdiff := fun heq => hne (congrArg _ heq)
    simp only [hredefinition, if_neg hdiff]
  case view | function =>
    split
    · exact .inl rfl
    · exact .inr ⟨_, rfl⟩
  case procedure | trigger => exact .inr ⟨_, rfl⟩

/-! ## Alterations of modules -/

variable {old : Statement} {alteration : Alteration}

/-- A module that is altered in place has its definition stated again if it has changed. -/
theorem restates_of_alter (h : alter old s = .ok alteration) (hmodule : module? s = some definition)
    (hkind : old.definition.kind = s.definition.kind) (hne : old.definition ≠ s.definition)
    (halters : (Decision.ofAlteration alteration).treatment.alters = true) :
    "ALTER" ++ definition ∈ (Decision.ofAlteration alteration).statements := by
  obtain ⟨remarks, -, rfl⟩ := alter_eq_ok h
  rcases definitionChanges?_ne hmodule hkind hne with hnone | ⟨invalidating, hsome⟩
  · rw [hnone] at halters
    cases halters
  · rw [hsome]
    exact mem_statements_ofChanges?.2 ⟨_, rfl, _, List.mem_cons_self, rfl⟩

/-- A module whose definition stays is not checked anew by an alteration. -/
theorem not_isRefresh_of_alter (h : alter old s = .ok alteration)
    (hmodule : module? s = some definition) (heq : old.definition = s.definition)
    (hsql : sql ∈ (Decision.ofAlteration alteration).statements) : ¬ IsRefresh sql := by
  obtain ⟨remarks, hremarks, rfl⟩ := alter_eq_ok h
  rw [heq, definitionChanges?_self hmodule] at hsql
  obtain ⟨_, hfound, change, hchange, rfl⟩ := mem_statements_ofChanges?.1 hsql
  obtain rfl := Option.some.inj hfound
  obtain ⟨sql, hin, rfl⟩ := List.mem_map.1 hchange
  exact Opens.not_prefix (hremarks sql hin) (by decide)

end SchemaMigration.Ddl.MsSql
