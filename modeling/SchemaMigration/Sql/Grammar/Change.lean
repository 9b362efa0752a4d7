import SchemaMigration.Sql.Grammar.Select

/-!
# Data changes

The statements that change the rows of tables. Each is read from behind its keyword on.
-/

namespace SchemaMigration.Sql

open Parse

namespace Inner

variable (inner : Inner)

/-- An assignment, of which the new value is kept. All tokens up to the equals sign name its
target. -/
def assignment : Parse Expr := fun tokens =>
  match tokens.dropWhile fun token => !token.isSymbol "=" with
  | _ :: rest => inner.anyExpr rest
  | [] => none

/-- What an `INSERT` does about rows that are there already. -/
def onConflict : Parse (List Expr) := do
  if !(← keyword "ON") then return []
  if ← keyword "CONFLICT" then
    if ← keywords ["ON", "CONSTRAINT"] then discard objectName else discard optionalColumnList
    expectKeyword "DO"
    if ← keyword "NOTHING" then return []
    expectKeywords ["UPDATE", "SET"]
    let values ← commaSeparated inner.assignment
    return values ++ (← inner.exprBehind "WHERE")
  else
    expectKeywords ["DUPLICATE", "KEY", "UPDATE"]
    commaSeparated inner.assignment

/-- The formats of files. -/
def fileFormats : List String :=
  ["AVRO", "JSONFILE", "ORC", "PARQUET", "RCFILE", "SEQUENCEFILE", "TEXTFILE"]

/-- The rows that are written to a directory, behind `DIRECTORY`. -/
def directory : Parse Query := do
  literalString inner.dialect
  if ← keywords ["STORED", "AS"] then
    if (← keywordOf fileFormats).isNone then failure
  inner.query

/-- An `INSERT` behind its keyword. The names of its columns may stand in front of its partition and
behind it. -/
def insert : Parse Statement := do
  discard (keywordOf ["INTO", "OVERWRITE"])
  discard (keyword "LOCAL")
  if ← keyword "DIRECTORY" then return .query (← inner.directory)
  discard (keyword "TABLE")
  let table ← objectName
  if inner.dialect = .postgres then if ← keyword "AS" then discard identifier
  let (rows, partition) ←
    if ← keywords ["DEFAULT", "VALUES"] then pure (none, [])
    else
      discard optionalColumnList
      let partition ← if ← keyword "PARTITION" then parenthesized inner.exprs else pure []
      discard optionalColumnList
      pure (some (← inner.query), partition)
  let conflict ← inner.onConflict
  return .insert table rows (partition ++ conflict) (← inner.returning)

/-- An `UPDATE` behind its keyword. -/
def update : Parse Statement := do
  let table ← inner.joined
  expectKeyword "SET"
  let values ← commaSeparated inner.assignment
  let tables ←
    if ← keyword "FROM" then
      if inner.dialect = .clickHouse then pure [] else pure [← inner.joined]
    else pure []
  let condition ← inner.exprBehind "WHERE"
  return .update table values tables condition (← inner.returning)

/-- A `DELETE` behind its keyword. -/
def delete : Parse Statement := do
  if !(← keyword "FROM") then
    discard (commaSeparated objectName)
    expectKeyword "FROM"
  let tables ← inner.tables
  let others ← inner.tablesBehind "USING"
  let condition ← inner.exprBehind "WHERE"
  let returning ← inner.returning
  let order ← inner.ordering
  let limit ←
    if ← keyword "LIMIT" then
      if ← keyword "ALL" then pure [] else pure [← inner.anyExpr]
    else pure []
  return .delete (tables ++ others) condition returning (order ++ limit)

/-- What a `MERGE` does with some rows, behind `WHEN`. It inserts those that its target does not
have, and changes or deletes those that it has. -/
def mergeClause : Parse (List Expr) := do
  let absent ← absentRows
  let condition ← inner.exprBehind "AND"
  expectKeyword "THEN"
  match absent, ← keywordOf ["INSERT", "UPDATE", "DELETE"] with
  | true, some "INSERT" =>
    discard optionalColumnList
    expectKeyword "VALUES"
    return condition ++ (← inner.rows)
  | false, some "UPDATE" =>
    expectKeyword "SET"
    return condition ++ (← commaSeparated inner.assignment)
  | false, some "DELETE" => return condition
  | _, _ => failure
where
  /-- Whether the clause is about rows that the target does not have. -/
  absentRows : Parse Bool := do
    let absent ← keyword "NOT"
    expectKeyword "MATCHED"
    if !absent then return false
    if ← keywords ["BY", "SOURCE"] then return false
    discard (keywords ["BY", "TARGET"])
    return true

/-- A `MERGE` behind its keyword. Its clauses reach to the end of the statement. -/
def merge : Parse Statement := do
  discard (keyword "INTO")
  let target ← inner.singleSource
  expectKeyword "USING"
  let source ← inner.singleSource
  expectKeyword "ON"
  let condition ← inner.anyExpr
  let clauses ← many do
    if (← peek).isNone || (← nextIs (Token.isSymbol ";")) then return none
    expectKeyword "WHEN"
    return some (← inner.mergeClause)
  return .command (.source target :: .source source :: condition :: clauses.flatten)

end Inner

end SchemaMigration.Sql
