import SchemaMigration.CommandLine.Arguments

/-!
# Runs of the program

A run reads its settings, then the scripts and inputs that these name, and writes one text, to a
file or to the output. It stops at the first fault, with a message and an exit code of its own.
-/

namespace SchemaMigration.CommandLine

/-- How a run ended, and what it wrote. -/
structure Report where
  exitCode : Nat := 0
  output : String := ""
  errors : String := ""
  deriving DecidableEq, Repr

/-- The settings of an invocation: those of its file, which its options override. -/
def Invocation.override (invocation : Invocation) (settings : Settings) : Settings :=
  { settings with
    select := if invocation.select.isEmpty then settings.select else invocation.select
    ignore := settings.ignore ++ invocation.ignore.map (⟨·, []⟩)
    pre := if invocation.pre.isEmpty then settings.pre else invocation.pre
    post := if invocation.post.isEmpty then settings.post else invocation.post
    transaction := settings.transaction && !invocation.noTransaction }

variable {m : Type → Type} [Monad m] (files : FileAccess m)

/-- The text that an invocation asks for. -/
def Invocation.text (invocation : Invocation) : ExceptT MigrationError m String := do
  let settings := invocation.override (← files.settings invocation.settings)
  match invocation.command with
  | .diff => files.script invocation.inputs settings
  | .plan => files.plan invocation.inputs settings

/-- The report of a run that failed. -/
def Report.ofFault (message : String) : Report :=
  { exitCode := 1, errors := "Error: " ++ message ++ "\n" }

/-- Runs an invocation. -/
def Invocation.run (invocation : Invocation) : m Report := do
  match ← (invocation.text files).run, invocation.output with
  | .error fault, _ => return .ofFault fault.message
  | .ok text, none => return { output := text }
  | .ok text, some path =>
    match ← files.write path text with
    | .ok () => return {}
    | .error fault => return .ofFault fault.message

/-- Runs the program with some arguments. Arguments that make no sense have an exit code of their
own. -/
def run (arguments : List String) : m Report :=
  match Invocation.ofArguments arguments with
  | .ok invocation => invocation.run files
  | .error .misuse => return { exitCode := 2 }
  | .error .help => return {}

end SchemaMigration.CommandLine
