import SchemaMigration.Dialect.Basic
import SchemaMigration.Sql.Grammar.Basic

/-!
# Data types in expressions

A data type mentions no name that is looked up, so only its form is kept: whether it is one of the
built-in types, an interval, or a type known by its name alone.
-/

namespace SchemaMigration.Sql

/-- The forms of a data type. -/
inductive TypeForm where
  | builtIn
  | interval
  | byName
  deriving DecidableEq

namespace Parse

/-- A whole number in parentheses, if a parenthesis comes next. -/
def optionalPrecision : Parse Unit := do if ← symbol "(" then wholeNumber; expectSymbol ")"

/-- One or two whole numbers in parentheses, if a parenthesis comes next. -/
def optionalPrecisionScale : Parse Unit := do
  if ← symbol "(" then
    wholeNumber
    if ← symbol "," then wholeNumber
    expectSymbol ")"

/-- A length in parentheses, if a parenthesis comes next. -/
def optionalLength : Parse Unit := do
  if ← symbol "(" then
    if !(← keyword "MAX") then
      wholeNumber
      discard (keywordOf ["CHARACTERS", "OCTETS"])
    expectSymbol ")"

/-- `WITH TIME ZONE` or `WITHOUT TIME ZONE`, if it comes next. -/
def optionalTimeZone : Parse Unit := do
  if (← keywordOf ["WITH", "WITHOUT"]).isSome then expectKeywords ["TIME", "ZONE"]

/-- What a type known by its name has in parentheses. -/
def typeModifier : Parse (Option Unit) := do
  if ← symbol ")" then return none
  match ← next with
  | .word .. | .number .. | .string _ | .symbol "," => return some ()
  | _ => failure

/-- Strings in parentheses. -/
def stringList : Parse Unit := do
  discard (parenthesized (commaSeparated (expect fun token => token matches .string _)))

/-- The rest of a type named by a keyword; nothing if the keyword names no built-in type. -/
def namedType? : String → Option (Parse Unit)
  | "BOOLEAN" | "BOOL" | "REAL" | "FLOAT4" | "FLOAT64" | "FLOAT8" | "UUID" | "DATE" | "JSON"
  | "JSONB" | "REGCLASS" | "TEXT" | "BYTEA" => some (pure ())
  | "DOUBLE" => some do discard (keyword "PRECISION")
  | "TINYINT" | "INT2" | "SMALLINT" | "MEDIUMINT" | "INT" | "INT4" | "INTEGER" | "BIGINT"
  | "INT8" => some do optionalPrecision; discard (keyword "UNSIGNED")
  | "INT64" => some (pure ())
  | "VARCHAR" | "NVARCHAR" => some optionalLength
  | "CHARACTER" | "CHAR" => some do
    if ← keyword "VARYING" then optionalLength
    else if ← keywords ["LARGE", "OBJECT"] then optionalPrecision
    else optionalLength
  | "FLOAT" | "CLOB" | "BINARY" | "VARBINARY" | "BLOB" | "BYTES" | "DATETIME" | "TIMESTAMPTZ"
  | "TIMETZ" | "STRING" => some optionalPrecision
  | "TIMESTAMP" | "TIME" => some do optionalPrecision; optionalTimeZone
  | "NUMERIC" | "DECIMAL" | "DEC" | "BIGNUMERIC" | "BIGDECIMAL" => some optionalPrecisionScale
  | "ENUM" | "SET" => some stringList
  | _ => none

/-- A data type, and whether it took a closing angle bracket too many: the second half of `>>`,
which closes two types at once. The number bounds the nesting. -/
def nestedType (dialect : Dialect) : Nat → Parse (TypeForm × Bool)
  | 0 => failure
  | fuel + 1 => do
    let (form, closed) ←
      match ← peek with
      | some (.word _ "INTERVAL" _) => discard next; pure (.interval, false)
      | some (.word _ "ARRAY" _) =>
        discard next
        expectSymbol "<"
        let (_, closed) ← nestedType dialect fuel
        if closed then pure (.builtIn, false)
        else if ← symbol ">>" then pure (.builtIn, true)
        else expectSymbol ">"; pure (.builtIn, false)
      | some (.word _ key _) =>
        match namedType? key with
        | some rest => discard next; rest; pure (.builtIn, false)
        | none =>
          discard objectName
          if ← symbol "(" then discard (many typeModifier)
          pure (.byName, false)
      | _ => failure
    let arrays ← many do
      when? (← symbol "[") do
        if dialect = .postgres then discard (maybe wholeNumber)
        expectSymbol "]"
    return (if arrays.isEmpty then form else .builtIn, closed)

/-- A data type. -/
def dataType (dialect : Dialect) : Parse TypeForm := do
  let (form, closed) ← fun tokens => nestedType dialect (tokens.length + 1) tokens
  if closed then failure else return form

/-- The units of an interval. -/
def intervalUnits : List String :=
  ["YEAR", "MONTH", "WEEK", "DAY", "HOUR", "MINUTE", "SECOND", "CENTURY", "DECADE", "DOW", "DOY",
    "EPOCH", "ISODOW", "ISOYEAR", "JULIAN", "MICROSECOND", "MICROSECONDS", "MILLENIUM",
    "MILLENNIUM", "MILLISECOND", "MILLISECONDS", "NANOSECOND", "NANOSECONDS", "QUARTER",
    "TIMEZONE", "TIMEZONE_HOUR", "TIMEZONE_MINUTE"]

/-- A part of a date or time. -/
def dateTimeField : Parse String := do
  match ← keywordOf (intervalUnits ++
      ["DATE", "DATETIME", "TIME", "DAYOFWEEK", "DAYOFYEAR", "ISOWEEK", "TIMEZONE_ABBR",
        "TIMEZONE_REGION"]) with
  | some field => return field
  | none => failure

/-- The units behind the value of an interval. -/
def intervalQualifier : Parse Unit := do
  let unit ← keywordOf intervalUnits
  if unit = some "SECOND" then optionalPrecisionScale
  else
    optionalPrecision
    if ← keyword "TO" then
      if (← dateTimeField) = "SECOND" then optionalPrecision

/-- A string as it stands behind the name of its type, where a plain word may take its place. -/
def literalString (dialect : Dialect) : Parse Unit :=
  expect fun
    | .string _ => true
    | .escaped _ => dialect = .postgres
    | token => token.isPlainWord

/-- A literal value; a name between double quotes counts as one. -/
def literalValue : Parse Unit := do
  match ← next with
  | .number .. | .string _ | .escaped _ | .literal _ | .placeholder => return ()
  | .word _ key quote =>
    if ["TRUE", "FALSE", "NULL"].contains key || quote = some '"' then return () else failure
  | .symbol ":" | .symbol "@" =>
    match ← next with
    | .word .. | .number _ false => return ()
    | _ => failure
  | _ => failure

end Parse

end SchemaMigration.Sql
