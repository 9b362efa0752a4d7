import SchemaMigration.Sql.Reader

/-!
# The names that an SQL text mentions

A traversal lists what a syntax tree mentions: the names that `WITH` binds, the tables that a `*`
stands for, tables, columns and functions. A query first mentions the names it binds and the tables
its own `*` stand for, then all else in the order of the tree. `References` are the distinct names
of each kind in the order of their first mention; a table under a name that was bound before is
none.
-/

namespace SchemaMigration.Sql

/-- A name in its role. -/
inductive Mention where
  /-- A name that `WITH` gives to a query. -/
  | binding (name : String)
  /-- A table all of whose columns are selected. -/
  | wildcard (path : List String)
  | relation (path : List String)
  | column (name : String)
  | function (path : List String)
  deriving DecidableEq, Repr

/-! ## The tables that `*` stands for -/

/-- The name under which a source can stand before `*`, with the name of the table. Only tables
and table functions have one. -/
def Source.selectable? : Source → Option (String × List String)
  | .table name alias? _ =>
    some (Text.lowerAscii (alias?.getD (name.getLast?.getD "")), name)
  | _ => none

/-- The sources joined in an element of a list of tables. -/
def Joined.sources : Joined → List Source
  | .mk first joins => first :: joins.map fun | .mk source _ => source

/-- The tables that an element of a list of results stands for. -/
def Item.wildcards (sources : List (String × List String)) : Item → List (List String)
  | .value _ => []
  | .all _ => sources.map Prod.snd
  | .allOf qualifier _ =>
    let key := Text.lowerAscii (qualifier.getLast?.getD "")
    [((sources.find? (·.1 == key)).map Prod.snd).getD qualifier]

/-- The tables that the results of a `SELECT` stand for. -/
def Select.wildcards : Select → List (List String)
  | .mk _ items tables _ =>
    let sources := (tables.flatMap Joined.sources).filterMap Source.selectable?
    items.flatMap (Item.wildcards sources)

/-- The tables that the results of a body stand for; those of queries in parentheses count when
the query itself is reached. -/
def Body.wildcards : Body → List (List String)
  | .select s => s.wildcards
  | .combined left right => left.wildcards ++ right.wildcards
  | _ => []

/-! ## All mentions -/

mutual

/-- What an expression mentions. -/
def Expr.mentions : Expr → List Mention
  | .column path => (path.getLast?.map Mention.column).toList
  | .call name operands => .function name :: Expr.mentionsList operands
  | .operation operands => Expr.mentionsList operands
  | .subquery q => q.mentions
  | .source s => s.mentions
  | .statement s => s.mentions

/-- What expressions mention. -/
def Expr.mentionsList : List Expr → List Mention
  | [] => []
  | expr :: exprs => expr.mentions ++ Expr.mentionsList exprs

/-- What a source mentions. -/
def Source.mentions : Source → List Mention
  | .table name _ operands => .relation name :: Expr.mentionsList operands
  | .derived q => q.mentions
  | .computed operands => Expr.mentionsList operands
  | .nested tables => tables.mentions
  | .pivoted source operands => source.mentions ++ Expr.mentionsList operands

/-- What joined sources mention. -/
def Joined.mentions : Joined → List Mention
  | .mk first joins => first.mentions ++ Join.mentionsList joins

/-- What elements of a list of tables mention. -/
def Joined.mentionsList : List Joined → List Mention
  | [] => []
  | joined :: others => joined.mentions ++ Joined.mentionsList others

/-- What a joined source mentions. -/
def Join.mentions : Join → List Mention
  | .mk source conditions => source.mentions ++ Expr.mentionsList conditions

/-- What joined sources mention. -/
def Join.mentionsList : List Join → List Mention
  | [] => []
  | join :: joins => join.mentions ++ Join.mentionsList joins

/-- What an element of a list of results mentions. -/
def Item.mentions : Item → List Mention
  | .value expr => expr.mentions
  | .all replacements | .allOf _ replacements => Expr.mentionsList replacements

/-- What a list of results mentions. -/
def Item.mentionsList : List Item → List Mention
  | [] => []
  | item :: items => item.mentions ++ Item.mentionsList items

/-- What a `SELECT` mentions. -/
def Select.mentions : Select → List Mention
  | .mk before items tables after =>
    Expr.mentionsList before ++ Item.mentionsList items ++ Joined.mentionsList tables ++
      Expr.mentionsList after

/-- What a body mentions. -/
def Body.mentions : Body → List Mention
  | .select s => s.mentions
  | .query q => q.mentions
  | .combined left right => left.mentions ++ right.mentions
  | .rows values => Expr.mentionsList values
  | .named => []
  | .change s => s.mentions

/-- What a query mentions. -/
def Query.mentions : Query → List Mention
  | .mk bindings body modifiers =>
    bindings.map (fun | .mk name _ => Mention.binding (Text.lowerAscii name)) ++
      body.wildcards.map .wildcard ++ Binding.mentionsList bindings ++ body.mentions ++
      Expr.mentionsList modifiers

/-- What a query under a name mentions. -/
def Binding.mentions : Binding → List Mention
  | .mk _ query => query.mentions

/-- What queries under names mention. -/
def Binding.mentionsList : List Binding → List Mention
  | [] => []
  | binding :: bindings => binding.mentions ++ Binding.mentionsList bindings

/-- What a statement mentions. -/
def Statement.mentions : Statement → List Mention
  | .query q => q.mentions
  | .insert table rows operands returning =>
    .relation table :: (match rows with
      | some query => query.mentions
      | none => []) ++ Expr.mentionsList operands ++ Item.mentionsList returning
  | .update table values tables condition returning =>
    table.mentions ++ Expr.mentionsList values ++ Joined.mentionsList tables ++
      Expr.mentionsList condition ++ Item.mentionsList returning
  | .delete tables condition returning modifiers =>
    Joined.mentionsList tables ++ Expr.mentionsList condition ++ Item.mentionsList returning ++
      Expr.mentionsList modifiers
  | .command operands => Expr.mentionsList operands

end

/-! ## References -/

/-- The distinct names of each kind. -/
structure References where
  relations : List (List String) := []
  wildcards : List (List String) := []
  columns : List String := []
  functions : List (List String) := []
  deriving DecidableEq, Repr

/-- The tables among some mentions whose names were not bound before. -/
def unboundRelations (bound : List String) : List Mention → List (List String)
  | [] => []
  | .binding name :: mentions => unboundRelations (name :: bound) mentions
  | .relation path :: mentions =>
    match path with
    | [name] =>
      if bound.contains (Text.lowerAscii name) then unboundRelations bound mentions
      else path :: unboundRelations bound mentions
    | _ => path :: unboundRelations bound mentions
  | _ :: mentions => unboundRelations bound mentions

/-- The distinct elements of a list in the order of their first place. -/
def distinct {α : Type} [BEq α] (xs : List α) : List α := xs.eraseDups

namespace References

/-- The references made by some mentions. -/
def ofMentions (mentions : List Mention) : References where
  relations := distinct (unboundRelations [] mentions)
  wildcards := distinct (mentions.filterMap fun | .wildcard path => some path | _ => none)
  columns := distinct (mentions.filterMap fun | .column name => some name | _ => none)
  functions := distinct (mentions.filterMap fun | .function path => some path | _ => none)

/-- The references made by the statements of a text as it is read, one scope of bound names for all.
A text that is not well formed makes none. -/
def ofText (read : Reader) (dialect : Dialect) (text : String) : References :=
  match read dialect text with
  | some statements => ofMentions (statements.flatMap Statement.mentions)
  | none => {}

end References

end SchemaMigration.Sql
