import SchemaMigration.Sql.Grammar.Change

/-!
# Queries

A query is a body with its bindings in front and its order and limits behind; a data change may take
the place of the body. With queries all parsers are there that an `Inner` is made of.
-/

namespace SchemaMigration.Sql

open Parse

namespace Inner

variable (inner : Inner)

/-- A query under a name, as it stands behind `WITH`. -/
def binding : Parse Binding := do
  let name ← identifier
  if !(← keyword "AS") then
    discard optionalColumnList
    expectKeyword "AS"
  if inner.dialect = .postgres then
    if !(← keyword "MATERIALIZED") then discard (keywords ["NOT", "MATERIALIZED"])
  let query ← parenthesized inner.query
  if ← keyword "FROM" then discard identifier
  return .mk name query

/-- The queries that `WITH` gives a name to, if it comes next. -/
def bindings : Parse (List Binding) := do
  if ← keyword "WITH" then
    discard (keyword "RECURSIVE")
    commaSeparated inner.binding
  else return []

/-- A query, one level further out. -/
def outerQuery : Parse Query := do
  let bindings ← inner.bindings
  if ← keyword "INSERT" then return .mk bindings (.change (← inner.insert)) []
  if ← keyword "UPDATE" then return .mk bindings (.change (← inner.update)) []
  let body ← inner.body
  return .mk bindings body (← inner.modifiers)

/-- The parsers of what nests at most so deep. -/
def ofDepth (dialect : Dialect) : Nat → Bool → Inner
  | 0, linked => onOneLevel ⟨dialect, linked, failure, failure, failure, fun _ => failure⟩
  | depth + 1, linked =>
    onOneLevel {
      dialect
      linked
      anyExpr tokens := (ofDepth dialect depth linked).strong 0 tokens
      linkedExpr tokens := (ofDepth dialect depth true).strong 0 tokens
      query tokens := (ofDepth dialect depth linked).outerQuery tokens
      strong _ := failure }

end Inner

end SchemaMigration.Sql
