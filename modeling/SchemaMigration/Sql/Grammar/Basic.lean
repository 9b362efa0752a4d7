import SchemaMigration.Sql.Token

/-!
# Reading tokens

A `Parse` takes tokens from the front of a list or fails; where an alternative follows a failure,
it starts at the same place. `tokens.length` bounds every repetition, since each round takes a
token.
-/

namespace SchemaMigration.Sql

/-- A parser of something at the front of a list of tokens. -/
abbrev Parse := StateT (List Token) Option

namespace Parse

variable {α : Type}

/-- The next token, which is left in place. -/
def peek : Parse (Option Token) := fun tokens => some (tokens.head?, tokens)

/-- The token behind the next `n` ones. -/
def peekAt (n : Nat) : Parse (Option Token) := fun tokens => some (tokens[n]?, tokens)

/-- The next token. -/
def next : Parse Token
  | token :: tokens => some (token, tokens)
  | [] => none

/-- Whether the next token is of a kind. -/
def nextIs (test : Token → Bool) : Parse Bool := do return ((← peek).map test).getD false

/-- Takes the next token if it is of a kind, and tells whether it did. -/
def takes (test : Token → Bool) : Parse Bool
  | token :: tokens => if test token then some (true, tokens) else some (false, token :: tokens)
  | [] => some (false, [])

/-- Takes the next token, which has to be of a kind. -/
def expect (test : Token → Bool) : Parse Unit := do if !(← takes test) then failure

/-- Takes a keyword, if it comes next. -/
def keyword (word : String) : Parse Bool := takes (Token.isKeyword word)

/-- Takes several keywords, if all of them come next. -/
def keywords (words : List String) : Parse Bool := fun tokens =>
  if tokens.length ≥ words.length && (tokens.zip words).all fun (t, w) => t.isKeyword w then
    some (true, tokens.drop words.length)
  else some (false, tokens)

/-- Takes one of several keywords and gives it. -/
def keywordOf (words : List String) : Parse (Option String)
  | .word value key quote :: tokens =>
    if words.contains key then some (some key, tokens)
    else some (none, .word value key quote :: tokens)
  | tokens => some (none, tokens)

/-- Takes a keyword, which has to come next. -/
def expectKeyword (word : String) : Parse Unit := expect (Token.isKeyword word)

/-- Takes several keywords, which have to come next. -/
def expectKeywords (words : List String) : Parse Unit := words.forM expectKeyword

/-- Takes an operator or punctuation mark, if it comes next. -/
def symbol (text : String) : Parse Bool := takes (Token.isSymbol text)

/-- Takes an operator or punctuation mark, which has to come next. -/
def expectSymbol (text : String) : Parse Unit := expect (Token.isSymbol text)

/-- What a parser reads, if it succeeds. -/
def maybe (p : Parse α) : Parse (Option α) := some <$> p <|> pure none

/-- What a parser reads, if the flag is set. -/
def when? (flag : Bool) (p : Parse α) : Parse (Option α) :=
  if flag then some <$> p else pure none

/-- What a parser reads behind an optional keyword. -/
def behind? (word : String) (p : Parse α) : Parse (Option α) := do when? (← keyword word) p

/-- What a parser reads between parentheses. -/
def parenthesized (p : Parse α) : Parse α := do
  expectSymbol "("
  let result ← p
  expectSymbol ")"
  return result

/-- Adds to a list what a parser reads, as long as it reads something. The number bounds the
rounds. -/
def repeated (p : Parse (Option α)) : Nat → Parse (List α)
  | 0 => failure
  | fuel + 1 => do
    match ← p with
    | some first => return first :: (← repeated p fuel)
    | none => return []

/-- Whatever a parser reads until it reads nothing. -/
def many (p : Parse (Option α)) : Parse (List α) := fun tokens =>
  repeated p (tokens.length + 1) tokens

/-- One or more elements with commas between them. -/
def commaSeparated (p : Parse α) : Parse (List α) := do
  let first ← p
  let others ← many do when? (← symbol ",") p
  return first :: others

/-- An identifier: any word, or a plain string. -/
def identifier : Parse String
  | .word value .. :: tokens => some (value, tokens)
  | .string value :: tokens => some (value, tokens)
  | _ => none

/-- Identifiers with dots between them. -/
def objectName : Parse (List String) := do
  let first ← identifier
  let others ← many do when? (← symbol ".") identifier
  return first :: others

/-- Identifiers in parentheses. -/
def columnList : Parse (List String) := parenthesized (commaSeparated identifier)

/-- Identifiers in parentheses, if a parenthesis comes next. -/
def optionalColumnList : Parse (Option (List String)) := do
  when? (← nextIs (Token.isSymbol "(")) columnList

/-- An alias: any name behind `AS`, else a string or a word that is not reserved. -/
def optionalAlias (reserved : List String) : Parse (Option String) := do
  if ← keyword "AS" then return some (← identifier)
  match ← peek with
  | some (.word _ key _) => if reserved.contains key then return none else some <$> identifier
  | some (.string _) => some <$> identifier
  | _ => return none

/-- The words that are no alias of a table unless `AS` stands before them. -/
def reservedForTables : List String :=
  ["WITH", "EXPLAIN", "ANALYZE", "SELECT", "WHERE", "GROUP", "SORT", "HAVING", "ORDER", "PIVOT",
    "UNPIVOT", "TOP", "LATERAL", "VIEW", "LIMIT", "OFFSET", "FETCH", "UNION", "EXCEPT",
    "INTERSECT", "ON", "JOIN", "INNER", "CROSS", "FULL", "LEFT", "RIGHT", "NATURAL", "USING",
    "CLUSTER", "DISTRIBUTE", "OUTER", "SET", "QUALIFY", "WINDOW", "END", "FOR", "PARTITION",
    "START", "CONNECT", "MATCH_RECOGNIZE"]

/-- The words that are no alias of a result unless `AS` stands before them. -/
def reservedForColumns : List String :=
  ["WITH", "EXPLAIN", "ANALYZE", "SELECT", "WHERE", "GROUP", "SORT", "HAVING", "ORDER", "TOP",
    "LATERAL", "VIEW", "LIMIT", "OFFSET", "FETCH", "UNION", "EXCEPT", "INTERSECT", "CLUSTER",
    "DISTRIBUTE", "RETURNING", "FROM", "INTO", "END"]

/-- The alias of a table with the names of its columns. -/
def optionalTableAlias : Parse (Option String) := do
  let alias? ← optionalAlias reservedForTables
  if alias?.isSome then discard optionalColumnList
  return alias?

/-- A whole number below 2^64. -/
def wholeNumber : Parse Unit
  | .number digits _ :: tokens =>
    if digits.toList.all Char.isDigit && (digits.toList.foldl
        (fun value c => value * 10 + (c.toNat - '0'.toNat)) 0) < Nat.pow 2 64 then some ((), tokens)
    else none
  | _ => none

end Parse

end SchemaMigration.Sql
