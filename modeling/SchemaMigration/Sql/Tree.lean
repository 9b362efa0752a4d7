/-!
# Syntax trees of queries and data changes

The trees keep the names that a text mentions and the nesting of its queries; operators, literals
and clauses that mention nothing are left out. The parts of a node stand in the order in which
their names count as mentioned. Where a clause or a statement names a table of its own or has a
statement within it, these stand among its operands, so that a statement of any kind has a tree.
-/

namespace SchemaMigration.Sql

mutual

/-- An expression, or what else can stand among the operands of a clause or of a statement. -/
inductive Expr where
  /-- A column, by a name of one or more parts. -/
  | column (path : List String)
  /-- A call of a function; the operands include those of its trailing clauses. -/
  | call (name : List String) (operands : List Expr)
  /-- Any other expression, by its operands. -/
  | operation (operands : List Expr)
  | subquery (query : Query)
  /-- A source that is no part of a list of tables. -/
  | source (source : Source)
  /-- A statement within another one. -/
  | statement (statement : Statement)

/-- What can stand in a list of tables. -/
inductive Source where
  /-- A table or table function; the operands are its arguments and hints. -/
  | table (name : List String) (alias? : Option String) (operands : List Expr)
  | derived (query : Query)
  /-- Rows computed from expressions, without a name that is looked up. -/
  | computed (operands : List Expr)
  /-- Joined tables in parentheses. -/
  | nested (tables : Joined)
  /-- A source whose rows are turned into columns or back. -/
  | pivoted (source : Source) (operands : List Expr)

/-- A source and those joined to it. -/
inductive Joined where
  | mk (first : Source) (joins : List Join)

/-- A source with the conditions on which it is joined. -/
inductive Join where
  | mk (source : Source) (conditions : List Expr)

/-- An element of a list of results. -/
inductive Item where
  | value (expr : Expr)
  /-- `*`, with the expressions that take the place of some columns. -/
  | all (replacements : List Expr)
  /-- `*` behind a qualifier. -/
  | allOf (qualifier : List String) (replacements : List Expr)

/-- A `SELECT`: expressions in front of its results, the results, the tables, and the expressions
of the clauses behind them. -/
inductive Select where
  | mk (before : List Expr) (items : List Item) (tables : List Joined) (after : List Expr)

/-- The body of a query. -/
inductive Body where
  | select (select : Select)
  /-- A query in parentheses. -/
  | query (query : Query)
  /-- The union, difference or intersection of two bodies. -/
  | combined (left right : Body)
  | rows (values : List Expr)
  /-- All rows of a table, whose name is not looked up. -/
  | named
  /-- A data change that returns rows. -/
  | change (statement : Statement)

/-- A query: the queries it gives a name to, its body, and the expressions that order and limit
its rows. -/
inductive Query where
  | mk (bindings : List Binding) (body : Body) (modifiers : List Expr)

/-- A query under a name. -/
inductive Binding where
  | mk (name : String) (query : Query)

/-- A statement. -/
inductive Statement where
  | query (query : Query)
  | insert (table : List String) (rows : Option Query) (operands : List Expr)
      (returning : List Item)
  | update (table : Joined) (values : List Expr) (tables : List Joined) (condition : List Expr)
      (returning : List Item)
  | delete (tables : List Joined) (condition : List Expr) (returning : List Item)
      (modifiers : List Expr)
  /-- Any other statement, by all that stands in it. -/
  | command (operands : List Expr)

end

/-- A table under its name alone. -/
def Source.named (name : List String) : Source := .table name none []

/-- A table that is no part of a list of tables. -/
def Expr.table (name : List String) : Expr := .source (.named name)

/-- A literal, a parameter or any other expression without operands. -/
def Expr.leaf : Expr := .operation []

end SchemaMigration.Sql
