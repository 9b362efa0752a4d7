import SchemaMigration.Sql.Grammar.Definition

/-!
# Creating, altering and dropping

The statements that create, alter and drop objects of all kinds. What they say about extensions,
databases, types and roles mentions nothing; a routine mentions what its defaults and its body do.
-/

namespace SchemaMigration.Sql

open Parse

namespace Parse

/-- The statements of a text or of a body, with semicolons between them; `END` may follow the last
one. The number bounds them. -/
def statements (statement : Parse Statement) : Nat → Bool → Parse (List Statement)
  | 0, _ => failure
  | fuel + 1, separated => do
    if ← symbol ";" then statements statement fuel true
    else
      match ← peek with
      | none => return []
      | some token =>
        if separated then
          let first ← statement
          return first :: (← statements statement fuel false)
        else if token.isKeyword "END" then return []
        else failure

/-- A statement that mentions what some expressions do. -/
def plain (exprs : Parse (List Expr)) : Parse Statement := do return .command (← exprs)

/-! ## Extensions, databases and types -/

/-- An extension behind `CREATE EXTENSION`. -/
def newExtension : Parse Statement := do
  discard (keywords ["IF", "NOT", "EXISTS"])
  discard identifier
  if ← keyword "WITH" then
    if ← keyword "SCHEMA" then discard identifier
    if ← keyword "VERSION" then discard identifier
    discard (keyword "CASCADE")
  return .command []

/-- A database behind `CREATE DATABASE`. -/
def newDatabase (dialect : Dialect) : Parse Statement := do
  discard (keywords ["IF", "NOT", "EXISTS"])
  discard objectName
  discard (many do
    if (← keywordOf ["LOCATION", "MANAGEDLOCATION"]).isSome then
      return some (← literalString dialect)
    return none)
  return .command []

/-- Elements in parentheses, which may be none, with commas between them. -/
def parenthesizedList (element : Parse Unit) : Parse Unit := do
  expectSymbol "("
  if !(← symbol ")") then
    discard (commaSeparated element)
    expectSymbol ")"

/-- A type behind `CREATE TYPE`, by its attributes. -/
def newType (dialect : Dialect) : Parse Statement := do
  discard objectName
  expectKeyword "AS"
  if ← nextIs (Token.isSymbol "(") then
    parenthesizedList do
      discard identifier
      discard (dataType dialect)
      if ← keyword "COLLATE" then discard objectName
  return .command []

/-! ## Roles -/

/-- The attributes of a role that are switched on, or off by the word `NO` in front. -/
def roleAttributes : List String :=
  ["LOGIN", "INHERIT", "BYPASSRLS", "CREATEDB", "CREATEROLE", "SUPERUSER", "REPLICATION"]

/-- An attribute of a role that is switched on or off; whether it is there. -/
def roleAttribute (name : String) : Parse Bool := keywordsOf [[name], ["NO" ++ name]]

/-- A setting of a role behind some keywords; whether it is there. -/
def roleSetting (words : List String) (value : Parse Unit) : Parse Bool := do
  if ← keywords words then
    value
    return true
  else return false

/-- A password, which may be none. -/
def password : Parse Unit := do if !(← keyword "NULL") then literalValue

/-- The settings of a role that have a value of their own. -/
def roleSettings : List (Parse Bool) :=
  [roleSetting ["PASSWORD"] password, roleSetting ["CONNECTION", "LIMIT"] numberValue,
    roleSetting ["VALID", "UNTIL"] literalValue]

/-- Roles behind `CREATE ROLE`. -/
def newRole (dialect : Dialect) : Parse Statement := do
  discard (keywords ["IF", "NOT", "EXISTS"])
  discard (commaSeparated objectName)
  discard (keyword "WITH")
  match dialect with
  | .msSql => inAnyOrder [roleSetting ["AUTHORIZATION"] (discard objectName)]
  | .postgres =>
    let members := [["IN", "ROLE"], ["IN", "GROUP"], ["ROLE"], ["USER"], ["ADMIN"]].map fun words =>
      roleSetting words (discard (commaSeparated identifier))
    inAnyOrder (roleAttributes.map roleAttribute ++ roleSettings ++ members)
  | .clickHouse => pure ()
  return .command []

end Parse

namespace Inner

variable (inner : Inner)

/-- A change of a role in PostgreSQL behind its name. -/
def roleChange : Parse (List Expr) := do
  if ← keywords ["IN", "DATABASE"] then discard objectName
  match ← keywordOf ["RENAME", "SET", "RESET"] with
  | some "RENAME" => expectKeyword "TO"; discard identifier; return []
  | some "SET" =>
    discard objectName
    if ← keywords ["FROM", "CURRENT"] then return []
    if !(← symbol "=") then expectKeyword "TO"
    if ← keyword "DEFAULT" then return []
    return [← inner.anyExpr]
  | some _ =>
    if !(← keyword "ALL") then discard objectName
    return []
  | none =>
    discard (keyword "WITH")
    let options ← many do
      for option in roleAttributes.map roleAttribute ++ roleSettings do
        if (← maybe option) = some true then return some ()
      return none
    if options.isEmpty then failure
    return []

/-- A role behind `ALTER ROLE`. -/
def changedRole : Parse Statement := do
  discard identifier
  match inner.dialect with
  | .postgres => plain inner.roleChange
  | .msSql =>
    if ← keywordsOf [["ADD", "MEMBER"], ["DROP", "MEMBER"]] then discard identifier
    else
      expectKeywords ["WITH", "NAME"]
      expectSymbol "="
      discard identifier
    return .command []
  | .clickHouse => failure

/-! ## Routines -/

/-- An argument of a function: the expression that stands for it when it is left out. -/
def functionArgument : Parse (List Expr) := do
  discard (keywordOf ["IN", "OUT", "INOUT"])
  if (← dataType inner.dialect) = .byName then discard (dataType inner.dialect)
  if ← keyword "DEFAULT" then return [← inner.anyExpr]
  if ← symbol "=" then return [← inner.anyExpr]
  return []

/-- A clause of a function: what it is about, and the expressions in it; nothing if none comes
next. -/
def functionClause : Parse (Option (String × List Expr)) := do
  if ← keyword "AS" then
    if !(← takes (· = .literal .dollar)) then literalString inner.dialect
    return some ("body", [])
  if ← keyword "LANGUAGE" then
    discard identifier
    return some ("language", [])
  if (← keywordOf ["IMMUTABLE", "STABLE", "VOLATILE"]).isSome then return some ("behavior", [])
  if ← keywordsOf [["CALLED", "ON", "NULL", "INPUT"], ["RETURNS", "NULL", "ON", "NULL", "INPUT"],
      ["STRICT"]] then
    return some ("null", [])
  if ← keyword "PARALLEL" then
    expectOneOf ["UNSAFE", "RESTRICTED", "SAFE"]
    return some ("parallel", [])
  if ← keyword "RETURN" then return some ("body", [← inner.anyExpr])
  return none

/-- A function behind `CREATE FUNCTION`, with no clause twice. -/
def newFunction : Parse Statement := do
  if inner.dialect ≠ .postgres then failure
  discard objectName
  expectSymbol "("
  let defaults ←
    if ← nextIs (Token.isSymbol ")") then pure [] else commaSeparated inner.functionArgument
  expectSymbol ")"
  if ← keyword "RETURNS" then discard (dataType inner.dialect)
  let clauses ← many inner.functionClause
  if ¬(clauses.map Prod.fst).Nodup then failure
  return .command (defaults.flatten ++ clauses.flatMap Prod.snd)

/-- A procedure behind `CREATE PROCEDURE`, by the statements in it. -/
def newProcedure (statement : Parse Statement) : Parse Statement := do
  discard objectName
  if ← nextIs (Token.isSymbol "(") then
    parenthesizedList do
      discard identifier
      discard (dataType inner.dialect)
  expectKeywords ["AS", "BEGIN"]
  let body ← fun tokens => statements statement (tokens.length + 1) true tokens
  expectKeyword "END"
  return .command (body.map Expr.statement)

/-! ## Tables of other kinds -/

/-- A table behind `CREATE VIRTUAL TABLE`, by the module that keeps it. -/
def newVirtualTable : Parse Statement := do
  discard (keywords ["IF", "NOT", "EXISTS"])
  let name ← objectName
  expectKeyword "USING"
  discard identifier
  discard optionalColumnList
  return .command [.table name]

/-- A table behind `CREATE EXTERNAL TABLE`, by the place where it is stored. -/
def newExternalTable : Parse Statement := do
  discard (keywords ["IF", "NOT", "EXISTS"])
  let name ← objectName
  let elements ← inner.tableElements
  let partitions ←
    if ← keywords ["PARTITIONED", "BY"] then parenthesized (commaSeparated inner.columnDefinition)
    else pure []
  discard (many do
    if ← keywords ["STORED", "AS"] then
      return some (← expectOneOf
        ["AVRO", "JSONFILE", "ORC", "PARQUET", "RCFILE", "SEQUENCEFILE", "TEXTFILE"])
    if ← keyword "LOCATION" then return some (← literalString inner.dialect)
    return none)
  let properties ← inner.optionValues "TBLPROPERTIES"
  return .command (.table name :: elements ++ partitions.flatten ++ properties)

/-! ## All kinds -/

/-- A `CREATE` behind its keyword. Another statement may stand in a procedure. -/
def create (statement : Parse Statement) : Parse Statement := do
  let replaces ← keywords ["OR", "REPLACE"]
  discard (keywords ["OR", "ALTER"])
  discard (keyword "LOCAL")
  discard (keyword "GLOBAL")
  discard (keyword "TRANSIENT")
  discard (keywordOf ["TEMP", "TEMPORARY"])
  match ← keywordOf ["TABLE", "VIEW", "MATERIALIZED", "EXTERNAL", "FUNCTION"] with
  | some "TABLE" => inner.newTable
  | some "VIEW" => inner.newView
  | some "MATERIALIZED" => expectKeyword "VIEW"; inner.newView
  | some "EXTERNAL" => expectKeyword "TABLE"; inner.newExternalTable
  | some _ => inner.newFunction
  | none =>
    if replaces then failure
    match ← keywordOf ["EXTENSION", "INDEX", "UNIQUE", "VIRTUAL", "SCHEMA", "DATABASE", "ROLE",
        "SEQUENCE", "TYPE", "PROCEDURE"] with
    | some "EXTENSION" => newExtension
    | some "INDEX" => inner.newIndex
    | some "UNIQUE" => expectKeyword "INDEX"; inner.newIndex
    | some "VIRTUAL" => expectKeyword "TABLE"; newVirtualTable
    | some "SCHEMA" => newSchema
    | some "DATABASE" => newDatabase inner.dialect
    | some "ROLE" => newRole inner.dialect
    | some "SEQUENCE" => newSequence inner.dialect
    | some "TYPE" => newType inner.dialect
    | some _ => inner.newProcedure statement
    | none => failure

/-- An `ALTER` behind its keyword. -/
def alter : Parse Statement := do
  match ← keywordOf ["TABLE", "INDEX", "VIEW", "ROLE"] with
  | some "TABLE" =>
    discard (keywords ["IF", "EXISTS"])
    discard (keyword "ONLY")
    let table ← objectName
    return .command (.table table :: (← commaSeparated inner.tableChange).flatten)
  | some "INDEX" =>
    discard objectName
    expectKeywords ["RENAME", "TO"]
    discard objectName
    return .command []
  | some "ROLE" => inner.changedRole
  | some _ =>
    let view ← objectName
    discard optionalColumnList
    let options ← inner.optionValues "WITH"
    expectKeyword "AS"
    let query ← inner.query
    return .command (.table view :: .subquery query :: options)
  | none => failure

/-- A `DROP` behind its keyword. -/
def drop : Parse Statement := do
  match ← keywordOf ["TABLE", "VIEW", "INDEX", "ROLE", "SCHEMA", "SEQUENCE", "STAGE", "FUNCTION",
      "PROCEDURE"] with
  | some "FUNCTION" | some "PROCEDURE" =>
    discard (keywords ["IF", "EXISTS"])
    let defaults ← commaSeparated do
      discard objectName
      if ← symbol "(" then
        if ← symbol ")" then return []
        let defaults ← commaSeparated inner.functionArgument
        expectSymbol ")"
        return defaults.flatten
      else return []
    discard (keywordOf ["CASCADE", "RESTRICT"])
    return .command defaults.flatten
  | some kind =>
    discard (keywords ["IF", "EXISTS"])
    discard (commaSeparated objectName)
    if kind ≠ "ROLE" then
      discard (keywordOf ["CASCADE", "RESTRICT"])
      discard (keyword "PURGE")
    return .command []
  | none => failure

end Inner

end SchemaMigration.Sql
