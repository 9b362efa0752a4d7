import SchemaMigration.Sql.Grammar.Session

/-!
# Statements

The statements of a text have semicolons between them. A statement is a query, a data change, a
definition or a command; some contain another statement, which is nested.
-/

namespace SchemaMigration.Sql

open Parse

namespace Parse

/-- The words that explain a statement or describe a table. -/
def explanations : List String := ["EXPLAIN", "DESCRIBE", "DESC"]

/-- A statement to explain, or else a table to describe. An explanation cannot be explained. -/
def explained (statement : Parse Statement) : Parse Statement := do
  discard (keyword "ANALYZE")
  discard (keyword "VERBOSE")
  if ← keyword "FORMAT" then expectOneOf ["TEXT", "GRAPHVIZ", "JSON"]
  let repeated ← nextIs (Token.isOneOf explanations)
  match ← maybe statement with
  | some statement => if repeated then failure else return statement
  | none =>
    discard (keywordOf ["EXTENDED", "FORMATTED"])
    return .command [.table (← objectName)]

/-- A statement that gets a name, behind `PREPARE`. -/
def prepared (dialect : Dialect) (statement : Parse Statement) : Parse Statement := do
  discard identifier
  if ← symbol "(" then
    discard (commaSeparated (dataType dialect))
    expectSymbol ")"
  expectKeyword "AS"
  statement

/-- A statement that nests at most so deep. -/
def statement (dialect : Dialect) : Nat → Parse Statement
  | 0 => failure
  | depth + 1 => do
    let inner := Inner.ofDepth dialect depth false
    if ← nextIs fun t => t.isOneOf ["SELECT", "WITH", "VALUES"] || t.isSymbol "(" then
      .query <$> inner.query
    else
      match ← next with
      | .word _ key _ =>
        match key with
        | "INSERT" => inner.insert
        | "UPDATE" => inner.update
        | "DELETE" => inner.delete
        | "MERGE" => inner.merge
        | "CREATE" => inner.create (statement dialect depth)
        | "ALTER" => inner.alter
        | "DROP" => inner.drop
        | "PREPARE" => prepared dialect (statement dialect depth)
        | _ =>
          if explanations.contains key then explained (statement dialect depth)
          else
            match inner.command? key with
            | some rest => rest
            | none => failure
      | _ => failure

end Parse

/-- How deep the statements of a text may nest. -/
def nestingLimit : Nat := 50

/-- The statements of a text, if it is well formed. -/
def parse? (dialect : Dialect) (tokens : List Token) : Option (List Statement) := do
  let (statements, _) ← statements (statement dialect nestingLimit) (tokens.length + 1) true tokens
  return statements

end SchemaMigration.Sql
