import SchemaMigration.Dialect.Basic
import SchemaMigration.Text.Blank

/-!
# Scripts

A script is a list of fragments, each in one of three phases. `Script.render` writes the phases in
order with a blank line between two that are not empty; inside a phase the fragments keep their
order. Generated statements are followed by the separator of the dialect, texts of the user are
written as they are.
-/

namespace SchemaMigration

/-- The phases of a script. -/
inductive Phase where
  | opening
  | body
  | closing
  deriving DecidableEq, Repr, Inhabited

/-- The word for a phase. -/
def Phase.name : Phase → String
  | opening => "BEGIN"
  | body => "BODY"
  | closing => "END"

/-- Every phase, in the order in which scripts run. -/
def Phase.all : List Phase := [opening, body, closing]

/-- The place of a phase in that order. -/
def Phase.rank : Phase → Nat
  | opening => 0
  | body => 1
  | closing => 2

/-- One text of a script; a verbatim one gets no separator. -/
structure Fragment where
  phase : Phase
  sql : String
  verbatim : Bool
  deriving DecidableEq, Repr, Inhabited

/-- A script of a dialect. -/
structure Script where
  dialect : Dialect
  fragments : List Fragment := []
  deriving DecidableEq, Repr, Inhabited

namespace Script

/-- A statement without blanks at its ends and without one terminator. -/
def statementText (sql : String) : String :=
  match (Text.trim sql).toList.reverse with
  | ';' :: rest => String.ofList (Text.dropEndWhile Text.isBlank rest.reverse)
  | cs => String.ofList cs.reverse

/-- The fragment for a statement, unless nothing is left of it. -/
def statementFragment? (phase : Phase) (sql : String) : Option Fragment :=
  let text := statementText sql
  if text.isEmpty then none else some ⟨phase, text, false⟩

/-- The fragment for a text of the user, unless it is blank. -/
def verbatimFragment? (phase : Phase) (sql : String) : Option Fragment :=
  if (Text.trim sql).isEmpty then none else some ⟨phase, Text.trimEnd sql, true⟩

/-- Appends a statement. -/
def push (script : Script) (phase : Phase) (sql : String) : Script :=
  { script with fragments := script.fragments ++ (statementFragment? phase sql).toList }

/-- Appends a text of the user. -/
def pushVerbatim (script : Script) (phase : Phase) (sql : String) : Script :=
  { script with fragments := script.fragments ++ (verbatimFragment? phase sql).toList }

/-- Appends statements in order. -/
def pushAll (script : Script) (phase : Phase) (statements : List String) : Script :=
  statements.foldl (fun s sql => s.push phase sql) script

/-- Appends texts of the user in order. -/
def pushAllVerbatim (script : Script) (phase : Phase) (texts : List String) : Script :=
  texts.foldl (fun s sql => s.pushVerbatim phase sql) script

/-- Whether the script has no fragments. -/
def isEmpty (script : Script) : Bool := script.fragments.isEmpty

/-- The texts of a phase, in order. -/
def statements (script : Script) (phase : Phase) : List String :=
  (script.fragments.filter fun fragment => fragment.phase == phase).map (·.sql)

/-- The fragments by phase; those of one phase keep their order. -/
def sorted (script : Script) : List Fragment :=
  script.fragments.mergeSort fun a b => a.phase.rank ≤ b.phase.rank

/-- What follows a statement of the dialect. -/
def separator : Dialect → String
  | .msSql => "\nGO\n"
  | .postgres | .clickHouse => ";\n"

/-- A fragment with what follows it. -/
def fragmentText (dialect : Dialect) (fragment : Fragment) : String :=
  fragment.sql ++ (if fragment.verbatim then "\n" else separator dialect)

/-- The texts of fragments, with a blank line where the phase changes. -/
def renderFrom (dialect : Dialect) : Option Phase → List Fragment → String
  | _, [] => ""
  | previous, fragment :: rest =>
    (if previous.any (· != fragment.phase) then "\n" else "") ++
      fragmentText dialect fragment ++ renderFrom dialect (some fragment.phase) rest

/-- The text of the script. -/
def render (script : Script) : String := renderFrom script.dialect none script.sorted

@[simp]
theorem fragments_push (script : Script) (phase : Phase) (sql : String) :
    (script.push phase sql).fragments = script.fragments ++ (statementFragment? phase sql).toList :=
  rfl

@[simp]
theorem fragments_pushVerbatim (script : Script) (phase : Phase) (sql : String) :
    (script.pushVerbatim phase sql).fragments =
      script.fragments ++ (verbatimFragment? phase sql).toList :=
  rfl

end Script

end SchemaMigration
