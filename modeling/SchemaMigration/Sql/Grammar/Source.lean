import SchemaMigration.Sql.Grammar.Expression

/-!
# Results and tables

A list of results, as it stands behind `SELECT` and `RETURNING`, and the tables that the rows come
from, with their joins.
-/

namespace SchemaMigration.Sql

open Parse

namespace Inner

variable (inner : Inner)

/-! ## Results -/

/-- What a dialect allows behind `*`: columns to leave out, and expressions in the place of
columns, which are returned. -/
def starOptions : Parse (List Expr) := do
  if inner.dialect ≠ .clickHouse then return []
  if ← keyword "EXCEPT" then
    if ← nextIs (Token.isSymbol "(") then discard columnList else discard identifier
  if ← keyword "REPLACE" then
    parenthesized (commaSeparated do
      let value ← inner.anyExpr
      discard (keyword "AS")
      discard identifier
      return value)
  else return []

/-- An element of a list of results, with its alias. A column of the name `from` is none, not even
in quotes. -/
def item : Parse Item := do
  match ← inner.starOrExpr with
  | .all _ => .all <$> inner.starOptions
  | .allOf qualifier _ => .allOf qualifier <$> inner.starOptions
  | .value (.column [name]) =>
    if Text.lowerAscii name = "from" then failure
    discard (optionalAlias reservedForColumns)
    return .value (.column [name])
  | .value value =>
    discard (optionalAlias reservedForColumns)
    return .value value

/-- A list of results. -/
def items : Parse (List Item) := commaSeparated inner.item

/-- The results behind `RETURNING`, if it comes next. -/
def returning : Parse (List Item) := do
  if ← keyword "RETURNING" then inner.items else return []

/-! ## Tables -/

/-- On which conditions the source just read is joined. -/
def joinConditions (natural : Bool) : Parse (List Expr) := do
  if natural then return []
  if ← keyword "ON" then return [← inner.anyExpr]
  if ← keyword "USING" then discard columnList
  return []

/-- The kinds of join that the next tokens may announce. -/
inductive JoinKind where
  /-- Without a condition. -/
  | plain
  | matched
  | conditional (natural : Bool)

/-- The words that announce a join, if they come next. -/
def joinKind : Parse (Option JoinKind) := do
  if ← keyword "CROSS" then
    if (← keywordOf ["JOIN", "APPLY"]).isNone then failure
    return some .plain
  if ← keyword "OUTER" then
    expectKeyword "APPLY"
    return some .plain
  if ← keyword "ASOF" then
    expectKeyword "JOIN"
    return some .matched
  let natural ← keyword "NATURAL"
  match ← keywordOf ["INNER", "JOIN", "LEFT", "RIGHT", "FULL"] with
  | some "JOIN" => return some (.conditional natural)
  | some "INNER" => expectKeyword "JOIN"; return some (.conditional natural)
  | some "FULL" =>
    discard (keyword "OUTER")
    expectKeyword "JOIN"
    return some (.conditional natural)
  | some _ =>
    discard (keywordOf ["OUTER", "SEMI", "ANTI"])
    expectKeyword "JOIN"
    return some (.conditional natural)
  | none => if natural then failure else return none

/-- A source and those joined to it, by a parser of sources. -/
def joinedBy (source : Parse Source) : Parse Joined := do
  let first ← source
  let joins ← many do
    match ← joinKind with
    | none => return none
    | some .plain => return some (.mk (← source) [])
    | some .matched =>
      let joined ← source
      expectKeyword "MATCH_CONDITION"
      let condition ← parenthesized inner.anyExpr
      return some (.mk joined (condition :: (← inner.joinConditions false)))
    | some (.conditional natural) =>
      return some (.mk (← source) (← inner.joinConditions natural))
  return .mk first joins

/-- A call as it stands behind `PIVOT`. -/
def aliasedCall : Parse Expr := do
  match ← next with
  | .word name .. =>
    let value ← inner.call [name]
    if ← keyword "AS" then discard identifier
    return value
  | _ => failure

/-- An expression with an alias behind `AS`. -/
def aliasedExpr : Parse Expr := do
  let value ← inner.anyExpr
  if ← keyword "AS" then discard identifier
  return value

/-- The values that become columns, in parentheses: any that occur, those of a query, or a list. -/
def pivotValues : Parse (List Expr) :=
  parenthesized do
    if ← keyword "ANY" then inner.ordering
    else if ← nextIs (Token.isOneOf ["SELECT", "WITH"]) then return [.subquery (← inner.query)]
    else commaSeparated inner.aliasedExpr

/-- What stands in the place of missing values, if it is given. -/
def pivotDefault : Parse (List Expr) := do
  if ← keywords ["DEFAULT", "ON", "NULL"] then return [← parenthesized inner.anyExpr] else return []

/-- `PIVOT` or `UNPIVOT` behind a source, any number of times. The number bounds them. -/
def pivots : Nat → Source → Parse Source
  | 0, _ => failure
  | fuel + 1, source => do
    match ← keywordOf ["PIVOT", "UNPIVOT"] with
    | none => return source
    | some "PIVOT" =>
      let operands ← parenthesized do
        let calls ← commaSeparated inner.aliasedCall
        expectKeyword "FOR"
        discard objectName
        expectKeyword "IN"
        let values ← inner.pivotValues
        return calls ++ values ++ (← inner.pivotDefault)
      discard optionalTableAlias
      pivots fuel (.pivoted source operands)
    | some _ =>
      parenthesized do
        discard identifier
        expectKeyword "FOR"
        discard identifier
        expectKeyword "IN"
        discard columnList
      discard optionalTableAlias
      pivots fuel (.pivoted source [])

/-- A query as a source, behind its opening parenthesis. -/
def derived : Parse Source := do
  let query ← inner.query
  expectSymbol ")"
  discard optionalTableAlias
  return .derived query

/-- Arguments up to the closing parenthesis. -/
def sourceArguments : Parse (List Expr) := do
  if ← symbol ")" then return []
  let operands := (← commaSeparated inner.argument).flatten
  expectSymbol ")"
  return operands

/-- A source behind `LATERAL`. -/
def lateral : Parse Source := do
  if ← symbol "(" then inner.derived
  else
    discard objectName
    expectSymbol "("
    let operands ← inner.sourceArguments
    discard optionalTableAlias
    return .computed operands

/-- The rows of arrays, behind `UNNEST`. -/
def unnested : Parse Source := do
  let arrays ← parenthesized inner.exprs
  discard optionalTableAlias
  if ← keyword "WITH" then
    if ← keyword "OFFSET" then discard (optionalAlias reservedForColumns)
  return .computed arrays

/-- What becomes of a value that is missing or faulty, if it is said. -/
def valueFallback : Parse (Option Unit) := do
  match ← keywordOf ["NULL", "ERROR", "DEFAULT"] with
  | none => return none
  | some word =>
    if word = "DEFAULT" then literalValue
    expectKeyword "ON"
    if (← keywordOf ["EMPTY", "ERROR"]).isNone then failure
    return some ()

/-- A column of the rows of a JSON text. -/
def jsonColumn : Parse Unit := do
  discard identifier
  discard (dataType inner.dialect)
  discard (keyword "EXISTS")
  expectKeyword "PATH"
  literalValue
  discard (many valueFallback)

/-- The rows of a JSON text, behind `JSON_TABLE`. -/
def jsonTable : Parse Source := do
  let text ← parenthesized do
    let text ← inner.anyExpr
    expectSymbol ","
    literalValue
    expectKeyword "COLUMNS"
    discard (parenthesized (commaSeparated inner.jsonColumn))
    return text
  discard optionalTableAlias
  return .computed [text]

/-- The hints behind a table, whose `WITH` may also start something else. -/
def hints : Parse (List Expr) := do
  if (← nextIs (Token.isKeyword "WITH")) &&
      ((← peekAt 1).map (·.isSymbol "(")).getD false then
    discard next
    parenthesized inner.exprs
  else return []

/-- A table or table function. -/
def namedTable : Parse Source := do
  let name ← objectName
  let version ←
    if inner.dialect = .msSql then
      if ← keywords ["FOR", "SYSTEM_TIME", "AS", "OF"] then pure [← inner.anyExpr] else pure []
    else pure []
  let arguments ← if ← symbol "(" then inner.sourceArguments else pure []
  let alias? ← optionalTableAlias
  let hints ← inner.hints
  return .table name alias? (arguments ++ hints ++ version)

/-- A source with its `PIVOT` clauses. -/
def withPivots (source : Parse Source) : Parse Source := do
  let source ← source
  fun tokens => inner.pivots (tokens.length + 1) source tokens

/-- A source. Parentheses hold a query, or else joined tables; the number bounds their nesting. -/
def source : Nat → Parse Source
  | 0 => failure
  | fuel + 1 => do
    if ← keyword "LATERAL" then inner.lateral
    else if ← keyword "TABLE" then
      let rows ← parenthesized inner.anyExpr
      discard optionalTableAlias
      return .computed [rows]
    else if ← symbol "(" then
      match ← maybe inner.derived with
      | some source => inner.withPivots (pure source)
      | none => do
        let tables ← inner.joinedBy (source fuel)
        match tables with
        | .mk _ (_ :: _) | .mk (.nested _) [] =>
          expectSymbol ")"
          discard optionalTableAlias
          return .nested tables
        | _ => failure
    else if inner.dialect = .postgres && (← nextIs (Token.isKeyword "UNNEST")) then
      discard next
      inner.unnested
    else if (← nextIs (Token.isKeyword "JSON_TABLE")) &&
        ((← peekAt 1).map (·.isSymbol "(")).getD false then
      discard next
      inner.jsonTable
    else inner.withPivots inner.namedTable

/-- A source without any joined to it. -/
def singleSource : Parse Source := fun tokens => inner.source (tokens.length + 1) tokens

/-- A source and those joined to it. -/
def joined : Parse Joined := inner.joinedBy inner.singleSource

/-- Tables with commas between them. -/
def tables : Parse (List Joined) := commaSeparated inner.joined

/-- The tables behind a keyword, if it comes next. -/
def tablesBehind (word : String) : Parse (List Joined) := do
  if ← keyword word then inner.tables else return []

end Inner

end SchemaMigration.Sql
