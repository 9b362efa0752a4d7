import SchemaMigration.Sql.Grammar.Object

/-!
# Commands of a session

The statements that neither change rows nor define tables: transactions, settings, cursors, rights
and maintenance. Each is read from behind its keyword on.
-/

namespace SchemaMigration.Sql

open Parse

namespace Parse

/-- A statement that mentions nothing. -/
def silent (rest : Parse Unit) : Parse Statement := do
  rest
  return .command []

/-! ## Transactions -/

/-- The properties of a transaction, where a comma between two of them may be left out. -/
def transactionModes : Parse Unit := do
  fun tokens => modes (tokens.length + 1) false tokens
where
  /-- Further properties; one has to come next if a comma stands before it. The number bounds
  them. -/
  modes : Nat → Bool → Parse Unit
    | 0, _ => failure
    | fuel + 1, required => do
      if ← mode then modes fuel (← symbol ",")
      else if required then failure
  /-- One property, if it comes next. -/
  mode : Parse Bool := do
    if ← keywords ["ISOLATION", "LEVEL"] then
      if ← keywordsOf
          [["READ", "UNCOMMITTED"], ["READ", "COMMITTED"], ["REPEATABLE", "READ"], ["SERIALIZABLE"]]
      then return true
      else failure
    else keywordsOf [["READ", "ONLY"], ["READ", "WRITE"]]

/-- The words behind `COMMIT`, `END` or `ROLLBACK`. -/
def chain : Parse Unit := do
  discard (keywordOf ["TRANSACTION", "WORK"])
  if ← keyword "AND" then
    discard (keyword "NO")
    expectKeyword "CHAIN"

/-- A statement about transactions. -/
def transaction? : String → Option (Parse Unit)
  | "START" => some do expectKeyword "TRANSACTION"; transactionModes
  | "BEGIN" => some do discard (keywordOf ["TRANSACTION", "WORK"]); transactionModes
  | "END" | "COMMIT" => some chain
  | "ROLLBACK" => some do
    chain
    if ← keyword "TO" then
      discard (keyword "SAVEPOINT")
      discard identifier
  | "SAVEPOINT" => some (discard identifier)
  | "RELEASE" => some do discard (keyword "SAVEPOINT"); discard identifier
  | _ => none

/-! ## Cursors and settings -/

/-- A `FETCH` behind its keyword. -/
def fetchStatement : Parse Unit := do
  match ← keywordOf
      ["NEXT", "PRIOR", "FIRST", "LAST", "ABSOLUTE", "RELATIVE", "FORWARD", "BACKWARD", "ALL"] with
  | some "ABSOLUTE" | some "RELATIVE" | none => numberValue
  | some "FORWARD" | some "BACKWARD" => if !(← keyword "ALL") then numberValue
  | some _ => pure ()
  expectOneOf ["FROM", "IN"]
  discard identifier
  if ← keyword "INTO" then discard objectName

/-- The name of a setting, unless it has quotes or several parts. -/
def settingName : Parse (Option String) := do
  if ← keywords ["TIME", "ZONE"] then return some "TIMEZONE"
  let start ← peek
  match start, ← objectName with
  | some (.word _ _ none), [name] => return some name
  | _, _ => return none

/-! ## Rights -/

/-- A right, which may be restricted to columns. -/
def privilege : Parse Unit := do
  match ← keywordOf ["CONNECT", "CREATE", "DELETE", "EXECUTE", "INSERT", "REFERENCES", "SELECT",
      "TEMPORARY", "TRIGGER", "TRUNCATE", "UPDATE", "USAGE"] with
  | some "INSERT" | some "REFERENCES" | some "SELECT" | some "UPDATE" => discard optionalColumnList
  | some _ => return
  | none => failure

/-- The rights and what they are on, behind `GRANT` or `REVOKE`. -/
def privileges : Parse Unit := do
  if ← keyword "ALL" then discard (keyword "PRIVILEGES") else discard (commaSeparated privilege)
  expectKeyword "ON"
  if !(← keywordsOf [["ALL", "TABLES", "IN", "SCHEMA"], ["ALL", "SEQUENCES", "IN", "SCHEMA"]]) then
    discard (keywordOf ["SEQUENCE", "SCHEMA", "TABLE"])
  discard (commaSeparated objectName)

/-- A `GRANT` behind its keyword. -/
def grant : Parse Unit := do
  privileges
  expectKeyword "TO"
  discard (commaSeparated identifier)
  discard (keywords ["WITH", "GRANT", "OPTION"])
  if ← keywords ["GRANTED", "BY"] then discard identifier

/-- A `REVOKE` behind its keyword. -/
def revoke : Parse Unit := do
  privileges
  expectKeyword "FROM"
  discard (commaSeparated identifier)
  if ← keywords ["GRANTED", "BY"] then discard identifier
  discard (keywordOf ["CASCADE", "RESTRICT"])

/-! ## Other statements -/

/-- A `KILL` behind its keyword. -/
def kill (dialect : Dialect) : Parse Unit := do
  if (← keywordOf ["CONNECTION", "QUERY", "MUTATION"]) = some "MUTATION" then
    if dialect ≠ .clickHouse then failure
  wholeNumber

/-- A `PRAGMA` behind its keyword. -/
def pragma : Parse Unit := do
  discard objectName
  if ← symbol "(" then
    value
    expectSymbol ")"
  else if ← symbol "=" then value
where
  /-- A number, a string or a parameter. -/
  value : Parse Unit := do
    match ← peek with
    | some (.string _) | some (.word _ _ (some '"')) => discard next
    | _ => numberValue

/-- A `MSCK` behind its keyword. -/
def repair : Parse Statement := do
  discard (keyword "REPAIR")
  expectKeyword "TABLE"
  let table ← objectName
  discard (maybe do
    discard (keywordOf ["ADD", "DROP", "SYNC"])
    expectKeyword "PARTITIONS")
  return .command [.table table]

/-- An `UNCACHE` behind its keyword. -/
def uncache : Parse Statement := do
  expectKeyword "TABLE"
  discard (keywords ["IF", "EXISTS"])
  return .command [.table (← objectName)]

/-- A `COMMENT` behind its keyword. -/
def comment (dialect : Dialect) : Parse Unit := do
  discard (keywords ["IF", "EXISTS"])
  expectKeyword "ON"
  expectOneOf ["COLUMN", "TABLE"]
  discard objectName
  expectKeyword "IS"
  if !(← keyword "NULL") then literalString dialect

end Parse

namespace Inner

variable (inner : Inner)

/-! ## Settings -/

/-- A `SET` behind its keyword. -/
def setting : Parse (List Expr) := do
  let scope ← keywordOf ["SESSION", "LOCAL", "HIVEVAR"]
  if scope = some "HIVEVAR" then expectSymbol ":"
  else if (← maybe role).isSome then return []
  let name ← settingName
  let assigned ← if ← symbol "=" then pure true else keyword "TO"
  if assigned then inner.exprs
  else
    match name with
    | none => failure
    | some name =>
      if Text.lowerAscii name = "timezone" then return [← inner.anyExpr]
      if name = "CHARACTERISTICS" then expectKeywords ["AS", "TRANSACTION"]; transactionModes
      else if name = "TRANSACTION" && scope.isNone then
        if ← keyword "SNAPSHOT" then literalValue else transactionModes
      else failure
      return []
where
  /-- The role behind `ROLE`. -/
  role : Parse Unit := do
    expectKeyword "ROLE"
    if !(← keyword "NONE") then discard identifier

/-- A `SHOW` behind its keyword. -/
def showing : Parse Statement := do
  let extended ← keyword "EXTENDED"
  let full ← keyword "FULL"
  match ← keywordOf ["COLUMNS", "FIELDS", "TABLES", "FUNCTIONS"] with
  | some "TABLES" =>
    if (← keywordOf ["FROM", "IN"]).isSome then discard identifier
    return .command (← filter)
  | some "FUNCTIONS" => return .command (← filter)
  | some _ =>
    expectOneOf ["FROM", "IN"]
    let table ← objectName
    let space ← if (← keywordOf ["FROM", "IN"]).isSome then pure [← identifier] else pure []
    return .command (.table (space ++ table) :: (← filter))
  | none =>
    if extended || full then failure
    match ← keywordOf ["CREATE", "COLLATION"] with
    | some "CREATE" =>
      expectOneOf ["TABLE", "TRIGGER", "FUNCTION", "PROCEDURE", "EVENT", "VIEW"]
      discard objectName
      return .command []
    | some _ => return .command (← filter)
    | none => fun tokens => some (.command [], tokens.dropWhile fun t => !t.isSymbol "=")
where
  /-- Which objects are shown. -/
  filter : Parse (List Expr) := do
    match ← keywordOf ["LIKE", "ILIKE", "WHERE"] with
    | some "WHERE" => return [← inner.anyExpr]
    | some _ => literalString inner.dialect; return []
    | none => return []

/-! ## Variables, cursors and calls -/

/-- A cursor behind `DECLARE`. -/
def cursor : Parse (List Expr) := do
  discard identifier
  discard (keyword "BINARY")
  discard (keywordOf ["INSENSITIVE", "ASENSITIVE"])
  discard (keywordsOf [["SCROLL"], ["NO", "SCROLL"]])
  expectKeyword "CURSOR"
  if (← keywordOf ["WITH", "WITHOUT"]).isSome then expectKeyword "HOLD"
  expectKeyword "FOR"
  return [.subquery (← inner.query)]

/-- The variables of MS SQL behind `DECLARE`. The token behind the last one goes with them. -/
def localVariables : Parse (List Expr) := fun tokens => declared (tokens.length + 1) tokens
where
  /-- The number bounds the variables. -/
  declared : Nat → Parse (List Expr)
    | 0 => failure
    | fuel + 1 => do
      if !(← identifier).startsWith "@" then failure
      if !(← keyword "CURSOR") then
        discard (keyword "AS")
        discard (dataType inner.dialect)
      let value ← if ← symbol "=" then pure [← inner.anyExpr] else pure []
      match ← peek with
      | some token =>
        discard next
        if token.isSymbol "," then return value ++ (← declared fuel) else return value
      | none => return value

/-- A `CALL` behind its keyword. The procedure itself is not looked up. -/
def procedureCall : Parse (List Expr) := do
  let name ← objectName
  if ← nextIs (Token.isSymbol "(") then
    match ← inner.call name with
    | .call _ operands => return operands
    | _ => failure
  else return []

/-- An `EXECUTE` behind its keyword. -/
def execute : Parse (List Expr) := do
  discard identifier
  if ← symbol "(" then
    let values ← inner.exprs
    expectSymbol ")"
    return values
  else return []

/-! ## Tables and files -/

/-- The parts of a table behind `PARTITION`, if it comes next. -/
def partition : Parse (List Expr) := do
  return (← behind? "PARTITION" (parenthesized inner.exprs)).getD []

/-- A `TRUNCATE` behind its keyword. -/
def truncate : Parse Statement := do
  discard (keyword "TABLE")
  let table ← objectName
  return .command (.table table :: (← inner.partition))

/-- An `ANALYZE` behind its keyword. -/
def analyze : Parse Statement := do
  expectKeyword "TABLE"
  let table ← objectName
  let parts ← many do
    match ← keywordOf ["PARTITION", "FOR", "CACHE", "NOSCAN", "COMPUTE"] with
    | some "PARTITION" => return some (some (← parenthesized inner.exprs))
    | some "FOR" =>
      expectKeyword "COLUMNS"
      discard (maybe (commaSeparated identifier))
      return some none
    | some "CACHE" => expectKeyword "METADATA"; return some none
    | some "COMPUTE" => expectKeyword "STATISTICS"; return some none
    | some _ => return some none
    | none => return none
  -- Of several `PARTITION` clauses the last one counts.
  return .command (.table table :: (parts.filterMap id).getLast?.getD [])

/-- A `CACHE` behind its keyword. The rows reach to the end of the text. -/
def cache : Parse Statement := do
  if !(← keyword "TABLE") then
    discard objectName
    expectKeyword "TABLE"
  let table ← objectName
  let options ← inner.optionValues "OPTIONS"
  if (← peek).isNone then return .command (.table table :: options)
  if !(← nextIs fun token => token matches .word ..) then failure
  discard (keyword "AS")
  return .command (.table table :: options ++ [.subquery (← inner.query)])

/-- A `COPY` behind its keyword. The rows of a query can only be copied to somewhere. -/
def copy : Parse (List Expr) := do
  let source ←
    if ← symbol "(" then
      let query ← inner.query
      expectSymbol ")"
      pure [Expr.subquery query]
    else
      discard objectName
      discard optionalColumnList
      pure []
  match ← keywordOf ["FROM", "TO"] with
  | some "FROM" => if !source.isEmpty then failure
  | some _ => pure ()
  | none => failure
  match ← keywordOf ["STDOUT", "PROGRAM"] with
  | some "STDOUT" => pure ()
  | _ => literalString inner.dialect
  discard (keyword "WITH")
  if ← symbol "(" then
    discard (commaSeparated option)
    expectSymbol ")"
  return source
where
  /-- An option of the format. -/
  option : Parse Unit := do
    match ← keywordOf ["FORMAT", "FREEZE", "HEADER", "FORCE_QUOTE", "FORCE_NOT_NULL", "FORCE_NULL",
        "DELIMITER", "NULL", "QUOTE", "ESCAPE", "ENCODING"] with
    | some "FORMAT" => discard identifier
    | some "FREEZE" | some "HEADER" => discard (keywordOf ["TRUE", "FALSE"])
    | some "FORCE_QUOTE" | some "FORCE_NOT_NULL" | some "FORCE_NULL" => discard columnList
    | some _ => literalString inner.dialect
    | none => failure

/-- An `UNLOAD` behind its keyword. -/
def unload : Parse (List Expr) := do
  let query ← parenthesized inner.query
  expectKeyword "TO"
  discard identifier
  return .subquery query :: (← inner.optionValues "WITH")

/-- A command behind its keyword, if there is one with this keyword. -/
def command? (keyword : String) : Option (Parse Statement) :=
  match keyword with
  | "SET" => some (plain inner.setting)
  | "SHOW" => some inner.showing
  | "USE" => some (silent (discard identifier))
  | "DISCARD" => some (silent (expectOneOf ["ALL", "PLANS", "SEQUENCES", "TEMP", "TEMPORARY"]))
  | "DECLARE" =>
    some (plain (if inner.dialect = .msSql then inner.localVariables else inner.cursor))
  | "FETCH" => some (silent fetchStatement)
  | "CLOSE" => some (silent (discard identifier))
  | "CALL" => some (plain inner.procedureCall)
  | "EXECUTE" => some (plain inner.execute)
  | "DEALLOCATE" => some (silent do discard (Parse.keyword "PREPARE"); discard identifier)
  | "ASSERT" => some (plain do return (← inner.anyExpr) :: (← inner.exprBehind "AS"))
  | "GRANT" => some (silent grant)
  | "REVOKE" => some (silent revoke)
  | "KILL" => some (silent (kill inner.dialect))
  | "PRAGMA" => some (silent pragma)
  | "COMMENT" => if inner.dialect = .postgres then some (silent (comment inner.dialect)) else none
  | "TRUNCATE" => some inner.truncate
  | "ANALYZE" => some inner.analyze
  | "MSCK" => some repair
  | "CACHE" => some inner.cache
  | "UNCACHE" => some uncache
  | "COPY" => some (plain inner.copy)
  | "UNLOAD" => some (plain inner.unload)
  | "ATTACH" => some (plain do
    discard (Parse.keyword "DATABASE")
    let file ← inner.anyExpr
    expectKeyword "AS"
    discard identifier
    return [file])
  | keyword => (transaction? keyword).map silent

end Inner

end SchemaMigration.Sql
