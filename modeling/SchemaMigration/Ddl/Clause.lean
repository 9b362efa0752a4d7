import SchemaMigration.Dialect.Identifier
import SchemaMigration.Object.Definition

/-!
# Clauses of data definition statements

The parts of statements that the dialects share.
-/

namespace SchemaMigration.Ddl

/-- A clause that is left out if there is no value. -/
def optional (lead : String) : Option String → String
  | some value => lead ++ value
  | none => ""

/-- A text that stands only under a condition. -/
def onlyIf (condition : Bool) (text : String) : String := if condition then text else ""

/-- An integer in decimal notation. -/
def integer (value : Int64) : String := String.ofList (Json.integerChars value.toInt)

/-- Storage parameters with their values. -/
def assignments (options : List (String × String)) : List String :=
  options.map fun (name, value) => name ++ " = " ++ value

/-- The storage parameters that are new or have a new value. -/
def setOptions (old new : List (String × String)) : List (String × String) :=
  new.filter fun (name, value) => old.lookup name ≠ some value

/-- The storage parameters that are gone. -/
def goneOptions (old new : List (String × String)) : List String :=
  (old.map Prod.fst).filter fun name => (new.lookup name).isNone

/-- A query as it stands in the definition of a view: without semicolons at its end. -/
def viewQuery (query : String) : String := Text.trimSuffixes ";" query

/-- The types of a routine's arguments. -/
def argumentTypes (routine : RoutineDefinition) : String :=
  Text.commaList (routine.argumentTypes.map Text.trim)

/-- A constraint as it stands behind its name. -/
def constraintClause (dialect : Dialect) (constraint : ConstraintDefinition) : String :=
  let columns := dialect.quoteList constraint.columns
  match constraint.type with
  | .primaryKey => "PRIMARY KEY (" ++ columns ++ ")"
  | .unique => "UNIQUE (" ++ columns ++ ")"
  | .check => "CHECK (" ++ constraint.expression.getD "true" ++ ")"
  | .foreignKey =>
    "FOREIGN KEY (" ++ columns ++ ")" ++
      match constraint.references with
      | some key =>
        " REFERENCES " ++ dialect.dotted key.schema key.table ++ " (" ++
          dialect.quoteList key.columns ++ ")" ++ optional " ON DELETE " key.onDelete ++
          optional " ON UPDATE " key.onUpdate
      | none => ""

end SchemaMigration.Ddl
