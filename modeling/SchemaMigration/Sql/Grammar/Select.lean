import SchemaMigration.Sql.Grammar.Source

/-!
# Bodies of queries

Bodies combine by `UNION` and `EXCEPT`, and stronger by `INTERSECT`, from left to right. Behind them
stand the order and the limits of the rows.
-/

namespace SchemaMigration.Sql

open Parse

namespace Inner

variable (inner : Inner)

/-! ## Bodies -/

/-- What `DISTINCT` and `TOP` put in front of the results. -/
def beforeItems : Parse (List Expr) := do
  let all ← keyword "ALL"
  let distinct ← keyword "DISTINCT"
  if all && distinct then failure
  let keys ←
    if distinct && (← nextIs (Token.isKeyword "ON")) then
      discard next
      parenthesized do
        if ← nextIs (Token.isSymbol ")") then pure [] else inner.exprs
    else pure []
  let top ←
    if ← keyword "TOP" then
      let quantity ←
        if ← symbol "(" then
          let quantity ← inner.anyExpr
          expectSymbol ")"
          pure [quantity]
        else wholeNumber; pure []
      discard (keyword "PERCENT")
      discard (keywords ["WITH", "TIES"])
      pure quantity
    else pure []
  return keys ++ top

/-- Expressions in parentheses, or a single one without them where that is allowed. -/
def grouping (single : Bool) : Parse (List Expr) := do
  if ← symbol "(" then
    if ← symbol ")" then return []
    let keys ← inner.exprs
    expectSymbol ")"
    return keys
  else if single then return [← inner.anyExpr]
  else failure

/-- A key to group by. -/
def groupKey : Parse Expr := do
  if inner.dialect = .postgres then
    if ← keywords ["GROUPING", "SETS"] then
      return .operation (← parenthesized (commaSeparated (inner.grouping false))).flatten
    if (← keywordOf ["CUBE", "ROLLUP"]).isSome then
      return .operation (← parenthesized (commaSeparated (inner.grouping true))).flatten
  inner.anyExpr

/-- The keys behind `GROUP BY`, if it comes next. -/
def groupKeys : Parse (List Expr) := do
  if ← keywords ["GROUP", "BY"] then
    if ← keyword "ALL" then return [] else commaSeparated inner.groupKey
  else return []

/-- The expressions behind two keywords, if they come next. -/
def exprsBy (word : String) : Parse (List Expr) := do
  if ← keywords [word, "BY"] then inner.exprs else return []

/-- The windows behind `WINDOW`, if it comes next. -/
def windows : Parse (List Expr) := do
  if ← keyword "WINDOW" then
    return (← commaSeparated do
      discard identifier
      expectKeyword "AS"
      expectSymbol "("
      inner.window).flatten
  else return []

/-- A generated view behind the tables. -/
def lateralView : Parse (Option Expr) := do
  if !(← keywords ["LATERAL", "VIEW"]) then return none
  discard (keyword "OUTER")
  let rows ← inner.anyExpr
  discard objectName
  discard (commaSeparated (optionalAlias ["WHERE", "GROUP", "CLUSTER", "HAVING", "LATERAL"]))
  return some rows

/-- Where a hierarchy starts and how its rows are linked, in either order, if they come next. -/
def hierarchy : Parse (List Expr) := do
  if inner.dialect ≠ .msSql then return []
  match ← keywordOf ["START", "CONNECT"] with
  | some "START" =>
    expectKeyword "WITH"
    let start ← inner.anyExpr
    expectKeywords ["CONNECT", "BY"]
    return start :: (← commaSeparated inner.linkedExpr)
  | some _ =>
    expectKeyword "BY"
    let links ← commaSeparated inner.linkedExpr
    expectKeywords ["START", "WITH"]
    return (← inner.anyExpr) :: links
  | none => return []

/-- The names of the table that `INTO` makes of the results. -/
def intoTable : Parse Unit := do
  if ← keyword "INTO" then
    discard (keywordOf ["TEMP", "TEMPORARY"])
    discard (keyword "UNLOGGED")
    discard (keyword "TABLE")
    discard objectName

/-- A `SELECT` behind its keyword. -/
def select : Parse Select := do
  let before ← inner.beforeItems
  let items ← inner.items
  intoTable
  let tables ← inner.tablesBehind "FROM"
  let views ← many inner.lateralView
  let condition ← inner.exprBehind "WHERE"
  let groups ← inner.groupKeys
  let clusters ← inner.exprsBy "CLUSTER"
  let distribution ← inner.exprsBy "DISTRIBUTE"
  let sorting ← inner.exprsBy "SORT"
  let having ← inner.exprBehind "HAVING"
  let qualifyFirst ← inner.exprBehind "QUALIFY"
  let windows ← inner.windows
  let qualifyLast ← if qualifyFirst.isEmpty then inner.exprBehind "QUALIFY" else pure []
  let hierarchy ← inner.hierarchy
  return .mk before items tables (views ++ condition ++ groups ++ clusters ++ distribution ++
    sorting ++ having ++ windows ++ qualifyFirst ++ qualifyLast ++ hierarchy)

/-- Rows of values behind `VALUES`. -/
def rows : Parse (List Expr) := do
  return (← commaSeparated do
    discard (keyword "ROW")
    parenthesized inner.exprs).flatten

/-- The name of a table behind `TABLE`, which takes the place of three tokens. -/
def wholeTable : Parse Unit := fun tokens =>
  match tokens with
  | .word .. :: .symbol "." :: rest =>
    match rest with
    | .word .. :: rest => some ((), rest)
    | _ => none
  | .word .. :: rest => some ((), rest.drop 2)
  | _ => none

/-- A body that is not combined of others. -/
def simpleBody : Parse Body := do
  if ← keyword "SELECT" then .select <$> inner.select
  else if ← keyword "VALUES" then .rows <$> inner.rows
  else if ← keyword "TABLE" then wholeTable; return .named
  else .query <$> parenthesized inner.query

/-- Bodies with one of some operators between them, combined from left to right. -/
def combinedBy (operators : List String) (part : Parse Body) : Parse Body := do
  let first ← part
  let others ← many do
    match ← keywordOf operators with
    | none => return none
    | some operator =>
      if operator = "UNION" then unionQuantifier else discard (keywordOf ["ALL", "DISTINCT"])
      some <$> part
  return others.foldl .combined first
where
  /-- Which rows a union keeps, and how it finds its columns. -/
  unionQuantifier : Parse Unit := do
    if ← keywords ["DISTINCT", "BY", "NAME"] then return
    if ← keywords ["BY", "NAME"] then return
    if ← keyword "ALL" then discard (keywords ["BY", "NAME"]) else discard (keyword "DISTINCT")

/-- A body. -/
def body : Parse Body :=
  combinedBy ["UNION", "EXCEPT"] (combinedBy ["INTERSECT"] inner.simpleBody)

/-! ## Order and limits -/

/-- What is known of the limits of a query. -/
structure Limits where
  limit : Option Expr
  offset : Option Expr

/-- One round of reading `LIMIT` and `OFFSET`. -/
def limitRound (limits : Limits) : Parse Limits := do
  let limit ←
    if limits.limit.isNone && (← nextIs (Token.isKeyword "LIMIT")) then
      discard next
      if ← keyword "ALL" then pure none else some <$> inner.anyExpr
    else pure limits.limit
  let offset ←
    if limits.offset.isNone && (← nextIs (Token.isKeyword "OFFSET")) then
      discard next
      let rows ← inner.anyExpr
      discard (keywordOf ["ROW", "ROWS"])
      pure (some rows)
    else pure limits.offset
  if inner.dialect = .clickHouse && limit.isSome && offset.isNone && (← nextIs (Token.isSymbol ","))
  then
    discard next
    return ⟨some (← inner.anyExpr), limit⟩
  else return ⟨limit, offset⟩

/-- `FETCH` behind its keyword. -/
def fetch : Parse Unit := do
  if (← keywordOf ["FIRST", "NEXT"]).isNone then failure
  if (← keywordOf ["ROW", "ROWS"]).isNone then
    literalValue
    discard (keyword "PERCENT")
    if (← keywordOf ["ROW", "ROWS"]).isNone then failure
  if !(← keyword "ONLY") then expectKeywords ["WITH", "TIES"]

/-- A name in parentheses. -/
def optionName : Parse Unit := parenthesized (literalString inner.dialect)

/-- An option of `FOR XML`, behind a comma, where it may be left out. -/
def xmlOption : Parse Unit := do
  match ← keywordOf ["ELEMENTS", "BINARY", "ROOT", "TYPE"] with
  | some "BINARY" => expectKeyword "BASE64"
  | some "ROOT" => inner.optionName
  | _ => return

/-- An option of `FOR JSON`, behind a comma, where it may be left out. -/
def jsonOption : Parse Unit := do
  if (← keywordOf ["ROOT", "INCLUDE_NULL_VALUES", "WITHOUT_ARRAY_WRAPPER"]) = some "ROOT" then
    inner.optionName

/-- A clause behind `FOR`; whether another one may follow. -/
def forClause : Parse Bool := do
  match ← keywordOf ["XML", "JSON", "BROWSE", "UPDATE", "SHARE"] with
  | some "XML" =>
    match ← keywordOf ["RAW", "AUTO", "EXPLICIT", "PATH"] with
    | some "RAW" | some "PATH" => if ← nextIs (Token.isSymbol "(") then inner.optionName
    | some _ => pure ()
    | none => failure
    discard (many do when? (← symbol ",") inner.xmlOption)
    return false
  | some "JSON" =>
    if (← keywordOf ["AUTO", "PATH"]).isNone then failure
    discard (many do when? (← symbol ",") inner.jsonOption)
    return false
  | some "BROWSE" => return false
  | some _ =>
    if ← keyword "OF" then discard objectName
    if !(← keyword "NOWAIT") then discard (keywords ["SKIP", "LOCKED"])
    return true
  | none => failure

/-- The clauses that each follow a `FOR`. The number bounds them. -/
def forClauses : Nat → Parse Unit
  | 0 => failure
  | fuel + 1 => do if ← keyword "FOR" then if ← inner.forClause then forClauses fuel

/-- The expressions that order and limit the rows of a query. -/
def modifiers : Parse (List Expr) := do
  let order ← inner.ordering
  let limits ← inner.limitRound (← inner.limitRound ⟨none, none⟩)
  let groups ←
    if inner.dialect = .clickHouse && (← nextIs (Token.isKeyword "BY")) then
      discard next
      inner.exprs
    else pure []
  if ← keyword "FETCH" then fetch
  fun tokens => inner.forClauses (tokens.length + 1) tokens
  return order ++ limits.limit.toList ++ groups ++ limits.offset.toList

end Inner

end SchemaMigration.Sql
