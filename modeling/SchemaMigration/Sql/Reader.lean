import SchemaMigration.Sql.Grammar.Statement
import SchemaMigration.Sql.Lexer

/-!
# Readers of SQL texts

What an SQL text mentions is said for whatever reader takes it apart. `Sql.read` is the reader that
is used: it splits a text into tokens and reads these by the grammar.
-/

namespace SchemaMigration.Sql

/-- A way to read SQL texts: gives the statements of a text in a dialect, if it is well formed. -/
abbrev Reader := Dialect → String → Option (List Statement)

/-- The statements of a text by the rules of tokens and of the grammar. -/
def read : Reader := fun dialect text => (tokenize dialect text).bind (parse? dialect)

end SchemaMigration.Sql
