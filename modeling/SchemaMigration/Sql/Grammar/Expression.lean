import SchemaMigration.Sql.Grammar.DataType
import SchemaMigration.Sql.Tree

/-!
# Expressions

An expression is an operand followed by operators that bind stronger than what stands before it.
Its parts are read by the parsers of an `Inner`. A part that may be any expression or query is
nested: it is read with one level of nesting less, so that the depth of a text is limited and the
recursion ends. The operand of an operator is not, since it ends where a weaker operator stands.
-/

namespace SchemaMigration.Sql

open Parse

/-- The expressions of an item. -/
def Item.operands : Item → List Expr
  | .value e => [e]
  | .all es | .allOf _ es => es

/-- The parsers of the parts of an expression or a query. -/
structure Inner where
  dialect : Dialect
  /-- Whether `PRIOR` is an operator, as it is behind `CONNECT BY`. -/
  linked : Bool
  /-- A nested expression. -/
  anyExpr : Parse Expr
  /-- A nested expression behind `CONNECT BY`. -/
  linkedExpr : Parse Expr
  /-- A nested query. -/
  query : Parse Query
  /-- An expression whose operators bind stronger than the number says. -/
  strong : Nat → Parse Expr

namespace Inner

variable (inner : Inner)

/-- Nested expressions with commas between them. -/
def exprs : Parse (List Expr) := commaSeparated inner.anyExpr

/-- Nested expressions, if a keyword comes next. -/
def exprBehind (word : String) : Parse (List Expr) := do
  return (← behind? word inner.anyExpr).toList

/-- An expression to sort by. -/
def sortKey : Parse Expr := do
  let key ← inner.anyExpr
  discard (keywordOf ["ASC", "DESC"])
  if !(← keywords ["NULLS", "FIRST"]) then discard (keywords ["NULLS", "LAST"])
  return key

/-- The expressions behind `ORDER BY`, if it comes next. -/
def ordering : Parse (List Expr) := do
  if ← keywords ["ORDER", "BY"] then commaSeparated inner.sortKey else return []

/-! ## Operators -/

/-- The operators that compare, each of which may stand before `ANY` or `ALL`. -/
def comparisons : List String := ["=", "==", "!=", "<", "<=", ">", ">="]

/-- How strong an operator written with signs binds; `0` for none. -/
def symbolPower (symbol : String) : Nat :=
  if (comparisons ++ ["<=>", "~", "~*", "!~", "!~*", "~~", "~~*", "!~~", "!~~*"]).contains symbol
  then 20
  else if symbol == "|" then 21
  else if ["^", "#", "<<", ">>"].contains symbol then 22
  else if symbol == "&" then 23
  else if ["+", "-"].contains symbol then 30
  else if ["*", "/", "%", "||"].contains symbol then 40
  else if ["::", "!", "[", "&&", "^@"].contains symbol then 50
  else if ["->", "->>", "#>", "#>>", "@>", "<@", "#-", "@?", "@@", "?", "?&", "?|"].contains
      symbol then 16
  else 0

/-- How strong an operator written as a word binds, by the two words behind it. -/
def wordPower (word : String) (second third : Option Token) : Nat :=
  let isWord (token : Option Token) (word : String) : Bool :=
    (token.map (·.isKeyword word)).getD false
  match word with
  | "OR" => 5
  | "AND" => 10
  | "XOR" => 24
  | "AT" => if isWord second "TIME" && isWord third "ZONE" then 41 else 0
  | "NOT" =>
    match second with
    | some (.word _ second _) => if second == "NOT" then 0 else positive second
    | _ => 0
  | "IS" => 17
  | "OPERATOR" => 20
  | "DIV" => 40
  | word => positive word
where
  /-- The operators that `NOT` may stand before. -/
  positive : String → Nat
    | "IN" | "BETWEEN" => 20
    | "LIKE" | "ILIKE" | "RLIKE" | "REGEXP" | "SIMILAR" => 19
    | _ => 0

/-- How strong the operator that comes next binds; `0` for none. -/
def nextPower : Parse Nat := do
  match ← peek with
  | some (.symbol s) => return symbolPower s
  | some (.word _ key _) => return wordPower key (← peekAt 1) (← peekAt 2)
  | _ => return 0

/-- Whether an operator written with signs takes an operand on both sides in a dialect. -/
def isBinary (dialect : Dialect) (symbol : String) : Bool :=
  if ["<<", ">>", "#", "&&", "^@"].contains symbol then dialect = .postgres
  else ! ["::", "!", "["].contains symbol

/-- The right operand of an operator, and the whole expression. -/
def rightOperand (left : Expr) (comparison : Bool) (power : Nat) : Parse Expr := do
  if (← keywordOf ["ANY", "ALL"]).isSome then
    let right ← parenthesized (inner.strong power)
    if comparison then return .operation [left, right] else failure
  else return .operation [left, ← inner.strong power]

/-- The index or the slice in brackets behind an expression of PostgreSQL, up to the closing
bracket. -/
def subscript : Parse (List Expr) := do
  let lower ← bound? (← symbol ":")
  if ← symbol "]" then return lower
  if !lower.isEmpty then expectSymbol ":"
  if ← symbol "]" then return lower
  let upper ← inner.anyExpr
  if ← symbol "]" then return lower ++ [upper]
  expectSymbol ":"
  if ← symbol "]" then return lower ++ [upper]
  let stride ← inner.anyExpr
  expectSymbol "]"
  return lower ++ [upper, stride]
where
  /-- The bound, unless it is left out. -/
  bound? (absent : Bool) : Parse (List Expr) := do
    if absent then return [] else return [← inner.anyExpr]

/-- The keys in brackets behind an expression, up to the last closing bracket. -/
def mapKeys : Parse (List Expr) := do
  let first ← key
  let others ← many do when? (← symbol "[") key
  return first :: others
where
  /-- A key and its closing bracket. -/
  key : Parse Expr := do
    let key ← inner.anyExpr
    expectSymbol "]"
    return key

/-- The rest of an `IS` test. -/
def isTest (left : Expr) : Parse Expr := do
  discard (keyword "NOT")
  if (← keywordOf ["NULL", "TRUE", "FALSE", "UNKNOWN"]).isSome then return .operation [left]
  expectKeywords ["DISTINCT", "FROM"]
  return .operation [left, ← inner.anyExpr]

/-- The rest of an `IN` test. -/
def inTest (left : Expr) : Parse Expr := do
  if ← keyword "UNNEST" then return .operation [left, ← parenthesized inner.anyExpr]
  parenthesized do
    if ← nextIs (Token.isOneOf ["SELECT", "WITH"]) then
      return .operation [left, .subquery (← inner.query)]
    else return .operation (left :: (← inner.exprs))

/-- The rest of a test for a pattern. -/
def patternTest (left : Expr) (escapable : Bool) : Parse Expr := do
  let pattern ← inner.strong 19
  if escapable then if ← keyword "ESCAPE" then literalString inner.dialect
  return .operation [left, pattern]

/-- The rest of a test that `NOT` may stand before. -/
def positiveTest (left : Expr) (word : String) : Parse Expr := do
  match word with
  | "IN" => inner.inTest left
  | "BETWEEN" =>
    let low ← inner.strong 20
    expectKeyword "AND"
    return .operation [left, low, ← inner.strong 20]
  | "LIKE" | "ILIKE" => inner.patternTest left true
  | "SIMILAR" => expectKeyword "TO"; inner.patternTest left true
  | "RLIKE" => inner.patternTest left false
  | "REGEXP" => discard (keyword "RLIKE"); inner.patternTest left false
  | _ => failure

/-- The name of an operator behind `OPERATOR`. -/
def operatorName : Parse Unit :=
  parenthesized do
    discard next
    discard (many do when? (← symbol ".") next)

/-- Takes an operator with its right side; `power` is how strong it binds. -/
def extend (left : Expr) (power : Nat) : Parse Expr := do
  match ← next with
  | .symbol "::" => discard (dataType inner.dialect); return .operation [left]
  | .symbol "!" => return .operation [left]
  | .symbol "[" =>
    if inner.dialect = .postgres then return .operation (left :: (← inner.subscript))
    else return .operation (left :: (← inner.mapKeys))
  | .symbol s =>
    if isBinary inner.dialect s then inner.rightOperand left (comparisons.contains s) power
    else failure
  | .word _ key _ =>
    match key with
    | "AND" | "OR" | "XOR" => inner.rightOperand left false power
    | "OPERATOR" =>
      if inner.dialect ≠ .postgres then failure
      operatorName
      inner.rightOperand left false power
    | "IS" => inner.isTest left
    | "AT" => expectKeywords ["TIME", "ZONE"]; return .operation [left, ← inner.strong power]
    | "NOT" =>
      match ← next with
      | .word _ key _ => inner.positiveTest left key
      | _ => failure
    | key => inner.positiveTest left key
  | _ => failure

/-- Takes operators that bind stronger than `power`, as long as `goesOn` holds of the next token.
The number bounds the rounds. -/
def extended (goesOn : Token → Bool) (power : Nat) : Nat → Expr → Parse Expr
  | 0, _ => failure
  | fuel + 1, left => do
    let strength ← nextPower
    if power < strength && (← nextIs goesOn) then
      extended goesOn power fuel (← inner.extend left strength)
    else return left

/-- Takes the operators behind an operand. -/
def operators (goesOn : Token → Bool) (power : Nat) (left : Expr) : Parse Expr := fun tokens =>
  inner.extended goesOn power (tokens.length + 1) left tokens

/-! ## Names -/

/-- The parts behind the first one of a dotted name, and whether `*` ends it, which it may only if
`star` is set. -/
def pathTail (star : Bool) : Nat → Parse (List String × Bool)
  | 0 => failure
  | fuel + 1 => do
    if ← symbol "." then
      if ← symbol "*" then
        if star then return ([], true) else failure
      let part ← identifier
      let (parts, ended) ← pathTail star fuel
      return (part :: parts, ended)
    else return ([], false)

/-- A dotted name behind its first part. -/
def path (star : Bool) (first : String) : Parse (List String × Bool) := fun tokens =>
  (pathTail star (tokens.length + 1) tokens).map fun ((parts, ended), rest) =>
    ((first :: parts, ended), rest)

/-- An expression, `*`, or `*` behind a qualifier. -/
def starOrExpr : Parse Item := do
  match ← peek with
  | some (.symbol "*") => discard next; return .all []
  | some (.word value ..) | some (.string value) =>
    match ← qualified? value with
    | some item => return item
    | none => .value <$> inner.anyExpr
  | _ => .value <$> inner.anyExpr
where
  /-- A name that ends in `*`; any other name is left in place. -/
  qualified? (first : String) : Parse (Option Item) := fun tokens => do
    match ← path true first (tokens.drop 1) with
    | ((qualifier, true), rest) => return (some (.allOf qualifier []), rest)
    | ((_, false), _) => return (none, tokens)

/-! ## Calls -/

/-- An argument, which may be named. -/
def argument : Parse (List Expr) := do
  if ((← peekAt 1).map (·.isSymbol "=>")).getD false then
    discard identifier
    expectSymbol "=>"
  return (← inner.starOrExpr).operands

/-- What follows `ON OVERFLOW` in an argument list. -/
def overflowClause : Parse (List Expr) := do
  if !(← keywords ["ON", "OVERFLOW"]) then return []
  if ← keyword "ERROR" then return []
  expectKeyword "TRUNCATE"
  let filler ←
    match ← peek with
    | some (.word _ "WITH" _) | some (.word _ "WITHOUT" _) => pure []
    | some (.string _) | some (.escaped _) | some (.literal .national)
    | some (.literal .hexadecimal) => pure [← inner.anyExpr]
    | _ => failure
  if !(← keyword "WITH") then expectKeyword "WITHOUT"
  expectKeyword "COUNT"
  return filler

/-- The arguments of a call up to the closing parenthesis. -/
def arguments : Parse (List Expr) := do
  if ← symbol ")" then return []
  let all ← keyword "ALL"
  let distinct ← keyword "DISTINCT"
  if all && distinct then failure
  let operands := (← commaSeparated inner.argument).flatten
  let order ← inner.ordering
  let limit ← inner.exprBehind "LIMIT"
  let filler ← inner.overflowClause
  expectSymbol ")"
  return operands ++ order ++ limit ++ filler

/-- The value of an interval from its first operand on, and its units. -/
def interval (first : Expr) : Parse Expr := do
  let value ← inner.operators (fun token => !token.isOneOf ["AND", "OR", "XOR"]) 0 first
  intervalQualifier
  return .operation [value]

/-- The name of a collation behind an operand. -/
def collated (operand : Expr) : Parse Expr := do
  if ← keyword "COLLATE" then discard objectName; return .operation [operand]
  else return operand

/-- One end of a window frame. -/
def frameBound : Parse (List Expr) := do
  if ← keywords ["CURRENT", "ROW"] then return []
  let distance ←
    if ← keyword "UNBOUNDED" then pure []
    else
      match ← peek with
      | some (.string _) => discard next; pure [← inner.interval (← collated .leaf)]
      | _ => pure [← inner.anyExpr]
  if (← keywordOf ["PRECEDING", "FOLLOWING"]).isNone then failure
  return distance

/-- A window up to the closing parenthesis. -/
def window : Parse (List Expr) := do
  if ← nextIs Token.isPlainWord then discard identifier
  let partition ← if ← keywords ["PARTITION", "BY"] then inner.exprs else pure []
  let order ← inner.ordering
  if ← symbol ")" then return partition ++ order
  if (← keywordOf ["ROWS", "RANGE", "GROUPS"]).isNone then failure
  let frame ←
    if ← keyword "BETWEEN" then
      let start ← inner.frameBound
      expectKeyword "AND"
      pure (start ++ (← inner.frameBound))
    else inner.frameBound
  expectSymbol ")"
  return partition ++ order ++ frame

/-- A call from its opening parenthesis on. -/
def call (name : List String) : Parse Expr := do
  expectSymbol "("
  let operands ← inner.arguments
  let group ←
    if ← keywords ["WITHIN", "GROUP"] then
      parenthesized do
        expectKeywords ["ORDER", "BY"]
        commaSeparated inner.sortKey
    else pure []
  let filter ← if inner.dialect = .postgres then condition else pure []
  if (← keywordOf ["RESPECT", "IGNORE"]).isSome then expectKeyword "NULLS"
  let window ←
    if ← keyword "OVER" then
      if ← symbol "(" then inner.window else discard identifier; pure []
    else pure []
  return .call name (operands ++ filter ++ window ++ group)
where
  /-- The condition behind `FILTER`. -/
  condition : Parse (List Expr) := do
    if ← keyword "FILTER" then
      if ← symbol "(" then
        if ← keyword "WHERE" then
          let filter ← inner.anyExpr
          expectSymbol ")"
          return [filter]
    return []

/-! ## Operands with a form of their own -/

/-- A query between parentheses. -/
def queryInParentheses : Parse Expr := .subquery <$> parenthesized inner.query

/-- A `CASE` behind its keyword. Its conditions come before its results. -/
def caseOperand : Parse Expr := do
  let subject ← if ← nextIs (Token.isKeyword "WHEN") then pure [] else pure [← inner.anyExpr]
  expectKeyword "WHEN"
  let first ← branch
  let others ← many do when? (← keyword "WHEN") branch
  let otherwise ← inner.exprBehind "ELSE"
  expectKeyword "END"
  let branches := first :: others
  return .operation (subject ++ branches.map Prod.fst ++ branches.map Prod.snd ++ otherwise)
where
  /-- A condition and its result. -/
  branch : Parse (Expr × Expr) := do
    let condition ← inner.anyExpr
    expectKeyword "THEN"
    return (condition, ← inner.anyExpr)

/-- A `CONVERT` behind its keyword. -/
def convertOperand : Parse Expr :=
  parenthesized do
    if inner.dialect = .msSql then
      discard (dataType inner.dialect)
      expectSymbol ","
      let value ← inner.anyExpr
      let styles ← if ← symbol "," then inner.exprs else pure []
      return .operation (value :: styles)
    else
      let value ← inner.anyExpr
      if ← keyword "USING" then discard objectName
      else
        expectSymbol ","
        discard (dataType inner.dialect)
        if ← keywords ["CHARACTER", "SET"] then discard objectName
      return .operation [value]

/-- A `CAST` behind its keyword. -/
def castOperand : Parse Expr :=
  parenthesized do
    let value ← inner.anyExpr
    expectKeyword "AS"
    discard (dataType inner.dialect)
    if ← keyword "FORMAT" then
      literalValue
      if ← keywords ["AT", "TIME", "ZONE"] then literalValue
    return .operation [value]

/-- An `EXTRACT` behind its keyword. -/
def extractOperand : Parse Expr :=
  parenthesized do
    discard dateTimeField
    expectKeyword "FROM"
    return .operation [← inner.anyExpr]

/-- A `CEIL` or `FLOOR` behind its keyword. -/
def roundOperand : Parse Expr :=
  parenthesized do
    let value ← inner.anyExpr
    if ← keyword "TO" then discard dateTimeField
    return .operation [value]

/-- A `POSITION` behind its keyword. -/
def positionOperand : Parse Expr :=
  parenthesized do
    let part ← inner.strong 20
    expectKeyword "IN"
    return .operation [part, ← inner.anyExpr]

/-- A `SUBSTRING` behind its keyword. -/
def substringOperand : Parse Expr :=
  parenthesized do
    let value ← inner.anyExpr
    let start ← bound "FROM"
    let length ← bound "FOR"
    return .operation (value :: start ++ length)
where
  /-- An expression behind a keyword or a comma. -/
  bound (word : String) : Parse (List Expr) := do
    if ← keyword word then return [← inner.anyExpr]
    if ← symbol "," then return [← inner.anyExpr]
    return []

/-- An `OVERLAY` behind its keyword. -/
def overlayOperand : Parse Expr :=
  parenthesized do
    let value ← inner.anyExpr
    expectKeyword "PLACING"
    let what ← inner.anyExpr
    expectKeyword "FROM"
    let start ← inner.anyExpr
    return .operation ([value, what, start] ++ (← inner.exprBehind "FOR"))

/-- A `TRIM` behind its keyword. -/
def trimOperand : Parse Expr :=
  parenthesized do
    discard (keywordOf ["BOTH", "LEADING", "TRAILING"])
    let first ← inner.anyExpr
    if ← keyword "FROM" then return .operation [← inner.anyExpr, first]
    discard (symbol ",")
    return .operation [first]

/-- An array up to its closing bracket. -/
def arrayOperand : Parse Expr := do
  if ← symbol "]" then return .leaf
  let elements ← inner.exprs
  expectSymbol "]"
  return .operation elements

/-- What stands in parentheses, from behind the opening one on. -/
def parenthesizedOperand : Parse Expr := do
  let value ←
    if ← nextIs (Token.isOneOf ["SELECT", "WITH"]) then .subquery <$> inner.query
    else .operation <$> inner.exprs
  expectSymbol ")"
  if ← symbol "." then
    match ← next with
    | .word .. => return .operation [value]
    | _ => failure
  return value

/-- A column or a call, behind the first part of its name. -/
def nameOperand (first : String) : Parse Expr := do
  match ← peek with
  | some (.symbol "(") | some (.symbol ".") =>
    let (path, ended) ← path (inner.dialect = .postgres) first
    if ended then return .leaf
    if ← nextIs (Token.isSymbol "(") then
      if inner.dialect = .msSql && ((← peekAt 1).map (·.isSymbol "+")).getD false &&
          ((← peekAt 2).map (·.isSymbol ")")).getD false then
        discard next
        discard next
        discard next
        return .operation [.column path]
      inner.call path
    else return .column path
  | some (.string _) | some (.literal .hexadecimal) =>
    if first.startsWith "_" then discard next; return .leaf else return .column [first]
  | _ => return .column [first]

/-- An operand that starts with a word, behind the word. -/
def wordOperand (value key : String) : Parse Expr := do
  match key with
  | "TRUE" | "FALSE" | "NULL" => return .leaf
  | "CURRENT_CATALOG" | "CURRENT_USER" | "SESSION_USER" | "USER" =>
    if inner.dialect = .postgres then return .call [value] [] else inner.nameOperand value
  | "CURRENT_TIMESTAMP" | "CURRENT_TIME" | "CURRENT_DATE" | "LOCALTIME" | "LOCALTIMESTAMP" =>
    if ← symbol "(" then return .call [value] (← inner.arguments) else return .call [value] []
  | "CASE" => inner.caseOperand
  | "CONVERT" => inner.convertOperand
  | "CAST" | "TRY_CAST" | "SAFE_CAST" => inner.castOperand
  | "EXISTS" => inner.queryInParentheses
  | "EXTRACT" => inner.extractOperand
  | "CEIL" | "FLOOR" => inner.roundOperand
  | "POSITION" =>
    if ← nextIs (Token.isSymbol "(") then inner.positionOperand else inner.nameOperand value
  | "SUBSTRING" => inner.substringOperand
  | "OVERLAY" => inner.overlayOperand
  | "TRIM" => inner.trimOperand
  | "ARRAY" =>
    if ← symbol "[" then inner.arrayOperand
    else if inner.dialect ≠ .clickHouse && (← nextIs (Token.isSymbol "(")) then
      return .call [value] [← inner.queryInParentheses]
    else inner.nameOperand value
  | "NOT" =>
    if ← keyword "EXISTS" then inner.queryInParentheses
    else return .operation [← inner.strong 15]
  | "PRIOR" =>
    if inner.linked then return .operation [← inner.strong 30] else inner.nameOperand value
  | _ => inner.nameOperand value

/-- An operand that starts with a sign, behind the sign. -/
def symbolOperand (sign : String) : Parse Expr := do
  match sign with
  | "[" => inner.arrayOperand
  | "+" | "-" => return .operation [← inner.strong 40]
  | "(" => inner.parenthesizedOperand
  | "!!" | "|/" | "||/" | "@" | "~" | ":" =>
    if inner.dialect = .postgres && sign ≠ ":" then return .operation [← inner.strong 30]
    if sign ≠ "@" && sign ≠ ":" then failure
    match ← next with
    | .word .. | .number _ false => return .leaf
    | _ => failure
  | _ => failure

/-- An operand. The name of a built-in type stands before a string, and any other operand may have
a collation behind it. The number bounds how often `INTERVAL` is repeated. -/
def operand : Nat → Parse Expr
  | 0 => failure
  | fuel + 1 => (do
      match ← dataType inner.dialect with
      | .builtIn => literalString inner.dialect; return .leaf
      | .interval => inner.interval (← operand fuel)
      | .byName => failure) <|> do
    let value ←
      match ← next with
      | .word _ "INTERVAL" _ => inner.interval (← operand fuel)
      | .word value key _ => inner.wordOperand value key
      | .symbol sign => inner.symbolOperand sign
      | .escaped _ => if inner.dialect = .postgres then pure .leaf else failure
      | .number .. | .string _ | .literal _ | .placeholder => pure .leaf
      | .unknown _ => failure
    collated value

/-- An expression whose operators bind stronger than `power`. The first number bounds how often one
such expression is the operand of another. -/
def exprAbove (inner : Inner) : Nat → Nat → Parse Expr
  | 0, _ => failure
  | fuel + 1, power => fun tokens =>
    let inner := { inner with strong := exprAbove inner fuel }
    (do inner.operators (fun _ => true) power (← inner.operand (tokens.length + 1))) tokens

/-- Lets the operands of operators be read on the level of the operators. -/
def onOneLevel (inner : Inner) : Inner :=
  { inner with strong := fun power tokens => inner.exprAbove (tokens.length + 1) power tokens }

end Inner

end SchemaMigration.Sql
