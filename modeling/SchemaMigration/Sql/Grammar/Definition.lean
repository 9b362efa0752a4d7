import SchemaMigration.Sql.Grammar.Query

/-!
# Definitions

What defines tables, views, indices, schemas and sequences, and what changes tables. Columns,
constraints and storage count only by the expressions in them; a table that a foreign key refers to
does not count as named.
-/

namespace SchemaMigration.Sql

open Parse

namespace Parse

/-- Takes each of some clauses at most once, in any order. A clause tells whether it was there. -/
def inAnyOrder (clauses : List (Parse Bool)) : Parse Unit := go clauses.length clauses
where
  /-- The number bounds the rounds. -/
  go : Nat → List (Parse Bool) → Parse Unit
    | 0, _ => return
    | fuel + 1, clauses => do
      match ← others? clauses with
      | some others => go fuel others
      | none => return
  /-- The clauses other than the first one that is there. -/
  others? : List (Parse Bool) → Parse (Option (List (Parse Bool)))
    | [] => return none
    | clause :: clauses => do
      if ← clause then return some clauses
      return (← others? clauses).map (clause :: ·)

/-- Takes the first of several runs of keywords that comes next, and tells whether there was one. -/
def keywordsOf : List (List String) → Parse Bool
  | [] => return false
  | words :: choices => do if ← keywords words then return true else keywordsOf choices

/-- Takes one of several keywords, which has to come next. -/
def expectOneOf (words : List String) : Parse Unit := expect (Token.isOneOf words)

/-- A number or a parameter. -/
def numberValue : Parse Unit := do
  match ← next with
  | .number .. | .placeholder => return ()
  | .symbol ":" | .symbol "@" =>
    match ← next with
    | .word .. | .number _ false => return ()
    | _ => failure
  | _ => failure

/-- A number with an optional sign. -/
def signedNumber : Parse Unit := do
  if !(← symbol "+") then discard (symbol "-")
  numberValue

/-! ## Constraints -/

/-- What happens to a row when the row it refers to changes. -/
def referentialAction : Parse Unit := do
  match ← keywordOf ["RESTRICT", "CASCADE", "SET", "NO"] with
  | some "SET" => expectOneOf ["NULL", "DEFAULT"]
  | some "NO" => expectKeyword "ACTION"
  | some _ => return
  | none => failure

/-- When a constraint is checked. -/
def constraintTiming : Parse Unit :=
  inAnyOrder [
    keywordsOf [["NOT", "DEFERRABLE"], ["DEFERRABLE"]],
    do
      if ← keyword "INITIALLY" then
        expectOneOf ["DEFERRED", "IMMEDIATE"]
        return true
      else return false,
    keywordsOf [["ENFORCED"], ["NOT", "ENFORCED"]]]

/-- The table that a foreign key refers to, behind `REFERENCES`. -/
def foreignTable : Parse Unit := do
  discard objectName
  discard optionalColumnList
  inAnyOrder [action "DELETE", action "UPDATE"]
  constraintTiming
where
  /-- What happens on a change of some kind. -/
  action (change : String) : Parse Bool := do
    if ← keywords ["ON", change] then
      referentialAction
      return true
    else return false

/-- The kind of an index behind `USING`; whether it is there. -/
def indexMethod : Parse Bool := do
  if ← keyword "USING" then
    expectOneOf ["BTREE", "HASH"]
    return true
  else return false

/-- The columns of a key behind `UNIQUE` or `PRIMARY KEY`, with the name and the properties of its
index. -/
def tableKey : Parse Unit := do
  discard (maybe identifier)
  discard indexMethod
  discard columnList
  discard (many do
    if ← indexMethod then return some ()
    if ← keyword "COMMENT" then return some (← expect fun token => token matches .string _)
    return none)
  constraintTiming

/-! ## Sequences -/

/-- The properties of a sequence. -/
def sequenceOptions : Parse Unit := do
  if ← keyword "INCREMENT" then
    discard (keyword "BY")
    signedNumber
  bound "MINVALUE"
  bound "MAXVALUE"
  if ← keyword "START" then
    discard (keyword "WITH")
    signedNumber
  if ← keyword "CACHE" then signedNumber
  discard (keywordsOf [["NO", "CYCLE"], ["CYCLE"]])
where
  /-- The least or the greatest number, or that there is none. -/
  bound (word : String) : Parse Unit := do
    if ← keyword word then signedNumber else discard (keywords ["NO", word])

/-- A sequence behind `CREATE SEQUENCE`. -/
def newSequence (dialect : Dialect) : Parse Statement := do
  discard (keywords ["IF", "NOT", "EXISTS"])
  discard objectName
  if ← keyword "AS" then discard (dataType dialect)
  sequenceOptions
  if ← keywords ["OWNED", "BY"] then if !(← keyword "NONE") then discard objectName
  return .command []

/-- A schema behind `CREATE SCHEMA`. -/
def newSchema : Parse Statement := do
  discard (keywords ["IF", "NOT", "EXISTS"])
  if ← keyword "AUTHORIZATION" then discard identifier
  else
    discard objectName
    if ← keyword "AUTHORIZATION" then discard identifier
  return .command []

end Parse

namespace Inner

variable (inner : Inner)

/-! ## Tables -/

/-- The values of options, which stand in parentheses behind a keyword if it comes next. -/
def optionValues (word : String) : Parse (List Expr) := do
  if ← keyword word then
    parenthesized (commaSeparated do
      discard identifier
      expectSymbol "="
      inner.anyExpr)
  else return []

/-- A generated column behind `GENERATED`. -/
def generation : Parse (Option (List Expr)) := do
  if ← keywordsOf [["ALWAYS", "AS", "IDENTITY"], ["BY", "DEFAULT", "AS", "IDENTITY"]] then
    if ← symbol "(" then
      sequenceOptions
      expectSymbol ")"
    return some []
  if ← keywords ["ALWAYS", "AS"] then
    let value ← parenthesized inner.anyExpr
    if !(← keyword "STORED") then
      if inner.dialect = .postgres then failure
      discard (keyword "VIRTUAL")
    return some [value]
  return none

/-- A property of a column, if one comes next. -/
def columnOption : Parse (Option (List Expr)) := do
  if ← keywords ["CHARACTER", "SET"] then discard objectName; return some []
  if ← keywords ["NOT", "NULL"] then return some []
  if ← keywords ["PRIMARY", "KEY"] then constraintTiming; return some []
  match ← keywordOf
      ["COMMENT", "NULL", "DEFAULT", "UNIQUE", "REFERENCES", "CHECK", "GENERATED"] with
  | some "COMMENT" => expect fun token => token matches .string _; return some []
  | some "NULL" => return some []
  | some "DEFAULT" => return some [← inner.anyExpr]
  | some "UNIQUE" => constraintTiming; return some []
  | some "REFERENCES" => foreignTable; return some []
  | some "CHECK" => return some [← parenthesized inner.anyExpr]
  | some _ => inner.generation
  | none =>
    if inner.dialect = .msSql && (← nextIs (Token.isKeyword "IDENTITY")) then
      discard next
      if ← symbol "(" then
        signedNumber
        expectSymbol ","
        signedNumber
        expectSymbol ")"
      return some []
    else return none

/-- A column of a table: the expressions in its properties. -/
def columnDefinition : Parse (List Expr) := do
  discard identifier
  discard (dataType inner.dialect)
  if ← keyword "COLLATE" then discard objectName
  return (← many do
    if ← keyword "CONSTRAINT" then
      discard identifier
      match ← inner.columnOption with
      | some exprs => return some exprs
      | none => failure
    else inner.columnOption).flatten

/-- A constraint of a table: the expressions in it, if one comes next. -/
def tableConstraint : Parse (Option (List Expr)) := do
  let hasName ← keyword "CONSTRAINT"
  if hasName then discard identifier
  match ← keywordOf ["UNIQUE", "PRIMARY", "FOREIGN", "CHECK"] with
  | some "UNIQUE" =>
    if ← nextIs (Token.isOneOf ["KEY", "INDEX"]) then failure
    tableKey
    return some []
  | some "PRIMARY" => expectKeyword "KEY"; tableKey; return some []
  | some "FOREIGN" =>
    expectKeyword "KEY"
    discard columnList
    expectKeyword "REFERENCES"
    foreignTable
    return some []
  | some _ => return some [← parenthesized inner.anyExpr]
  | none => if hasName then failure else return none

/-- The columns and constraints of a table in parentheses, if a parenthesis comes next. A comma may
stand behind the last one. -/
def tableElements : Parse (List Expr) := do
  if !(← symbol "(") then return []
  if ← symbol ")" then return []
  fun tokens => elements (tokens.length + 1) tokens
where
  /-- The number bounds the elements. -/
  elements : Nat → Parse (List Expr)
    | 0 => failure
    | fuel + 1 => do
      let exprs ←
        match ← inner.tableConstraint with
        | some exprs => pure exprs
        | none =>
          if ← nextIs fun token => token matches .word .. then inner.columnDefinition else failure
      let comma ← symbol ","
      if ← symbol ")" then return exprs
      if comma then return exprs ++ (← elements fuel) else failure

/-- The columns that the rows of a table are sorted by, behind `ORDER BY` if it comes next. -/
def tableOrder : Parse Unit := do
  if ← keywords ["ORDER", "BY"] then
    if ← symbol "(" then
      if !(← nextIs (Token.isSymbol ")")) then discard (commaSeparated identifier)
      expectSymbol ")"
    else discard identifier

/-- A table behind `CREATE TABLE`. -/
def newTable : Parse Statement := do
  discard (keywords ["IF", "NOT", "EXISTS"])
  let name ← objectName
  if ← keywords ["ON", "CLUSTER"] then discard identifier
  if (← keywordOf ["LIKE", "ILIKE"]).isSome then discard objectName
  if ← keyword "CLONE" then discard objectName
  let elements ← inner.tableElements
  let options ← inner.optionValues "WITH"
  let properties ← inner.optionValues "TBLPROPERTIES"
  if ← keyword "ENGINE" then
    expectSymbol "="
    expect fun token => token matches .word ..
  tableOrder
  let rows := (← behind? "AS" inner.query).toList.map Expr.subquery
  if ← keywords ["ON", "COMMIT"] then
    if !(← keywordsOf [["DELETE", "ROWS"], ["PRESERVE", "ROWS"], ["DROP"]]) then failure
  discard (keyword "STRICT")
  if ← keyword "COMMENT" then
    discard (symbol "=")
    expect fun token => token matches .string _
  return .command (.table name :: elements ++ properties ++ options ++ rows)

/-! ## Views and indices -/

/-- A view behind `CREATE VIEW`. -/
def newView : Parse Statement := do
  let name ← objectName
  if ← symbol "(" then
    if !(← symbol ")") then
      discard (commaSeparated do
        discard identifier
        if inner.dialect = .clickHouse then discard (dataType inner.dialect))
      expectSymbol ")"
  let options ← inner.optionValues "WITH"
  if ← keyword "CLUSTER" then
    expectKeyword "BY"
    discard optionalColumnList
  expectKeyword "AS"
  let query ← inner.query
  return .command (.table name :: .subquery query :: options)

/-- An index behind `CREATE INDEX`. -/
def newIndex : Parse Statement := do
  discard (keyword "CONCURRENTLY")
  let hasName ← keywords ["IF", "NOT", "EXISTS"]
  if hasName || !(← keyword "ON") then
    discard objectName
    expectKeyword "ON"
  let table ← objectName
  if ← keyword "USING" then discard identifier
  let keys ← parenthesized (commaSeparated inner.sortKey)
  if ← keyword "INCLUDE" then discard columnList
  if ← keyword "NULLS" then
    discard (keyword "NOT")
    expectKeyword "DISTINCT"
  return .command (.table table :: keys ++ (← inner.exprBehind "WHERE"))

/-! ## Changes of tables -/

/-- A change of a column behind its name. -/
def columnChange : Parse (List Expr) := do
  if ← keywordsOf [["SET", "NOT", "NULL"], ["DROP", "NOT", "NULL"], ["DROP", "DEFAULT"]] then
    return []
  if ← keywords ["SET", "DEFAULT"] then return [← inner.anyExpr]
  if !(← keywords ["SET", "DATA", "TYPE"]) then
    if inner.dialect = .postgres then expectKeyword "TYPE" else failure
  discard (dataType inner.dialect)
  if inner.dialect = .postgres then inner.exprBehind "USING" else return []

/-- Rules, triggers or policies behind `DISABLE` or `ENABLE`. -/
def switched (choices : List (List String)) : Parse (List Expr) := do
  if !(← keywords ["ROW", "LEVEL", "SECURITY"]) then
    if !(← keywordsOf choices) then failure
    discard identifier
  return []

/-- A column with its type and its properties, as it is to be. -/
def changedColumn : Parse (List Expr) := do
  discard identifier
  discard (dataType inner.dialect)
  return (← many inner.columnOption).flatten

/-- A change of a table: the expressions in it. -/
def tableChange : Parse (List Expr) := do
  match ← keywordOf ["ADD", "RENAME", "DISABLE", "ENABLE", "DROP", "PARTITION", "CHANGE", "MODIFY",
      "ALTER", "SWAP", "SET"] with
  | some "ADD" =>
    match ← inner.tableConstraint with
    | some exprs => return exprs
    | none =>
      discard (keywords ["IF", "NOT", "EXISTS"])
      let partitions ← many (behind? "PARTITION" (parenthesized inner.exprs))
      if !partitions.isEmpty then return partitions.flatten
      discard (keyword "COLUMN")
      if inner.dialect = .postgres then discard (keywords ["IF", "NOT", "EXISTS"])
      inner.columnDefinition
  | some "RENAME" =>
    if ← keyword "TO" then discard objectName
    else
      if !(← takes fun token => inner.dialect = .postgres && token.isKeyword "CONSTRAINT") then
        discard (keyword "COLUMN")
      discard identifier
      expectKeyword "TO"
      discard identifier
    return []
  | some "DISABLE" => switched [["RULE"], ["TRIGGER"]]
  | some "ENABLE" =>
    switched [["ALWAYS", "RULE"], ["ALWAYS", "TRIGGER"], ["REPLICA", "RULE"],
      ["REPLICA", "TRIGGER"], ["RULE"], ["TRIGGER"]]
  | some "DROP" =>
    if ← keywordsOf [["IF", "EXISTS", "PARTITION"], ["PARTITION"]] then
      return ← parenthesized inner.exprs
    if !(← keyword "CONSTRAINT") then discard (keyword "COLUMN")
    discard (keywords ["IF", "EXISTS"])
    discard identifier
    discard (keyword "CASCADE")
    return []
  | some "PARTITION" =>
    let before ← parenthesized inner.exprs
    expectKeywords ["RENAME", "TO", "PARTITION"]
    return before ++ (← parenthesized inner.exprs)
  | some "CHANGE" =>
    discard (keyword "COLUMN")
    discard identifier
    inner.changedColumn
  | some "MODIFY" =>
    discard (keyword "COLUMN")
    inner.changedColumn
  | some "SWAP" => expectKeyword "WITH"; discard objectName; return []
  | some "SET" =>
    if !(← nextIs (Token.isKeyword "TBLPROPERTIES")) then failure
    inner.optionValues "TBLPROPERTIES"
  | some _ =>
    discard (keyword "COLUMN")
    discard identifier
    inner.columnChange
  | none => failure

end Inner

end SchemaMigration.Sql
