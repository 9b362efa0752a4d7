import SchemaMigration.Dialect.Basic
import SchemaMigration.Object.Id

/-!
# Identifiers in statements

PostgreSQL and ClickHouse write simple identifiers bare; all others are quoted. A quotation mark
inside a quoted identifier is doubled in PostgreSQL, where identifiers stand in quotation marks,
and a closing bracket in MS SQL, where they stand in brackets; ClickHouse uses grave accents and
puts a backslash in front of one inside.
-/

namespace SchemaMigration

/-- The words that PostgreSQL does not take as bare identifiers. -/
def reservedWords : List String :=
  ["all", "analyse", "analyze", "and", "any", "array", "as", "asc", "both", "case", "cast",
    "check", "collate", "column", "constraint", "create", "default", "desc", "distinct", "do",
    "else", "end", "except", "false", "for", "foreign", "from", "grant", "group", "having",
    "in", "into", "leading", "limit", "not", "null", "offset", "on", "only", "or", "order",
    "primary", "references", "select", "table", "then", "to", "true", "union", "unique",
    "user", "using", "when", "where", "with"]

/-- The grave accent. -/
def graveAccent : Char := Char.ofNat 96

namespace Dialect

/-- The characters that may start a bare identifier. -/
def startsBare (dialect : Dialect) (c : Char) : Bool :=
  c == '_' || c.isLower || (dialect != .postgres && c.isUpper)

/-- The characters that may stand in a bare identifier. -/
def continuesBare (dialect : Dialect) (c : Char) : Bool := dialect.startsBare c || c.isDigit

/-- Whether the characters form a bare identifier. -/
def isBare (dialect : Dialect) : List Char → Bool
  | [] => false
  | c :: cs => dialect.startsBare c && cs.all dialect.continuesBare

/-- An identifier as it stands in a statement. -/
def quoteChars (dialect : Dialect) (ident : List Char) : List Char :=
  match dialect with
  | postgres =>
    if dialect.isBare ident && !reservedWords.contains (String.ofList ident) then ident
    else '"' :: Text.replaceChars '"' ['"', '"'] ident ++ ['"']
  | msSql => '[' :: Text.replaceChars ']' [']', ']'] ident ++ [']']
  | clickHouse =>
    if dialect.isBare ident then ident
    else graveAccent :: Text.replaceChars graveAccent ['\\', graveAccent] ident ++ [graveAccent]

/-- An identifier as it stands in a statement. -/
def quote (dialect : Dialect) (ident : String) : String :=
  String.ofList (dialect.quoteChars ident.toList)

/-- Identifiers with commas between them. -/
def quoteList (dialect : Dialect) (idents : List String) : String :=
  Text.commaList (idents.map dialect.quote)

/-- Two identifiers with a dot between them. -/
def dotted (dialect : Dialect) (first second : String) : String :=
  dialect.quote first ++ "." ++ dialect.quote second

/-- The name by which statements address an object: schema qualified for what a schema owns, bare
for schemas, roles and sub-elements, empty for the database. -/
def qualified (dialect : Dialect) (id : ObjectId) : String :=
  match id.kind with
  | .database => ""
  | .schema | .role => dialect.quote id.name
  | kind =>
    if kind.isSubElement then dialect.quote id.name
    else
      match id.schemaName? with
      | some schema => dialect.dotted schema id.bareName
      | none => dialect.quote id.bareName

/-- The qualified name of the table that owns a sub-element. -/
def owningTable (dialect : Dialect) (id : ObjectId) : String :=
  match id.path with
  | schema :: table :: _ => dialect.dotted schema table
  | _ => dialect.qualified id

end Dialect

/-- A text as a string literal: apostrophes are doubled. -/
def literal (value : String) : String := "'" ++ Text.replaceEach '\'' "''" value ++ "'"

end SchemaMigration
