import SchemaMigration.Migration.Inputs

/-!
# Arguments of the command line

The program has two commands: `diff` writes the script of a migration, `plan` lists its actions.
An option stands alone or takes a value, which follows as the next argument, or is attached to the
option: behind `=`, or behind a short name with or without `=`. An argument that starts with a dash
is never the value of the option before it, unless it is a dash alone. After `--` nothing is an
option any more, and neither command takes anything else.
-/

namespace SchemaMigration.CommandLine

/-- What is written. -/
inductive Command where
  | diff
  | plan
  deriving DecidableEq, Repr, Inhabited

/-- The command of a word. -/
def Command.ofWord? : String → Option Command
  | "diff" => some diff
  | "plan" => some plan
  | _ => none

/-- The options that take a value. -/
inductive ValueOption where
  | old
  | new
  | dependencies
  | settings
  | select
  | ignore
  | pre
  | post
  | output
  deriving DecidableEq, Repr

namespace ValueOption

/-- Every option that takes a value. -/
def all : List ValueOption :=
  [old, new, dependencies, settings, select, ignore, pre, post, output]

/-- The long name of an option. -/
def name : ValueOption → String
  | old => "old"
  | new => "new"
  | dependencies => "dependencies"
  | settings => "settings"
  | select => "select"
  | ignore => "ignore"
  | pre => "pre"
  | post => "post"
  | output => "output"

/-- The short name of an option, if it has one. -/
def letter? : ValueOption → Option Char
  | dependencies => some 'd'
  | settings => some 's'
  | output => some 'o'
  | _ => none

/-- Whether an option may be given more than once. -/
def repeatable : ValueOption → Bool
  | select | ignore | pre | post => true
  | _ => false

/-- Whether the value is a path, which must not be empty. -/
def isPath : ValueOption → Bool
  | select | ignore => false
  | _ => true

/-- Whether a command has an option. -/
def isOf (option : ValueOption) (command : Command) : Bool :=
  option ≠ output || command = .diff

end ValueOption

/-- Why arguments ask for no run: they are wrong, or they ask for the help text. -/
inductive Refusal where
  | misuse
  | help
  deriving DecidableEq, Repr

/-- The options met so far, with their values in order. -/
structure Options where
  values : List (ValueOption × String) := []
  noTransaction : Bool := false
  deriving DecidableEq, Repr

/-- The values of an option. -/
def Options.of (options : Options) (option : ValueOption) : List String :=
  (options.values.filter (·.1 = option)).map (·.2)

/-- Adds the value of an option. -/
def Options.add (options : Options) (option : ValueOption) (value : String) :
    Except Refusal Options :=
  if option.isPath && value.isEmpty then .error .misuse
  else if !option.repeatable && (options.values.any (·.1 = option)) then .error .misuse
  else .ok { options with values := options.values ++ [(option, value)] }

/-- What one argument is. -/
inductive Argument where
  | value
  | separator
  /-- A long option with the value behind `=`. -/
  | long (name : String) (attached : Option String)
  /-- A short option with what is behind its letter. -/
  | short (letter : Char) (attached : List Char)
  deriving DecidableEq, Repr

/-- Tells arguments apart by their dashes. -/
def Argument.ofText (text : String) : Argument :=
  match text.toList with
  | ['-', '-'] => separator
  | '-' :: '-' :: rest =>
    let name := rest.takeWhile (· ≠ '=')
    long (String.ofList name)
      (if name.length < rest.length then some (String.ofList (rest.drop (name.length + 1)))
       else none)
  | '-' :: letter :: rest => short letter rest
  | _ => value

/-- What is behind the letter of a short option, without an equals sign in front; nothing if
there is nothing. -/
def attachedValue? : List Char → Option String
  | [] => none
  | '=' :: rest => some (String.ofList rest)
  | rest => some (String.ofList rest)

/-- What an argument does: it sets a switch, or it names an option with or without its value. -/
inductive Meaning where
  | noTransaction
  | option (option : ValueOption) (attached : Option String)

/-- The meaning of an argument of a command. -/
def meaning (command : Command) (text : String) : Except Refusal Meaning :=
  let known (option? : Option ValueOption) (attached : Option String) : Except Refusal Meaning :=
    match option?.filter (·.isOf command) with
    | some option => .ok (.option option attached)
    | none => .error .misuse
  match Argument.ofText text with
  | .value | .separator => .error .misuse
  | .long "no-transaction" none => .ok .noTransaction
  | .long "help" none => .error .help
  | .long name attached => known (ValueOption.all.find? (·.name = name)) attached
  | .short 'h' _ => .error .help
  | .short letter rest =>
    known (ValueOption.all.find? (·.letter? = some letter)) (attachedValue? rest)

/-- Reads the options of a command. -/
def readOptions (command : Command) (options : Options) : List String → Except Refusal Options
  | [] => .ok options
  | ["--"] => .ok options
  | text :: rest => do
    match ← meaning command text, rest with
    | .noTransaction, rest =>
      if options.noTransaction then throw .misuse
      readOptions command { options with noTransaction := true } rest
    | .option option (some value), rest =>
      readOptions command (← options.add option value) rest
    | .option _ none, [] => throw .misuse
    | .option option none, value :: rest =>
      if Argument.ofText value ≠ .value then throw .misuse
      readOptions command (← options.add option value) rest

/-- What the program is asked to do. -/
structure Invocation where
  command : Command
  inputs : Inputs
  settings : Option String
  select : List String
  ignore : List String
  pre : List String
  post : List String
  noTransaction : Bool
  output : Option String
  deriving DecidableEq, Repr

/-- The invocation of a command with its options, if none is missing. -/
def Options.invocation (options : Options) (command : Command) : Except Refusal Invocation :=
  match options.of .old, options.of .new with
  | old :: _, new :: _ =>
    .ok {
      command
      inputs := { old, new, dependencies := (options.of .dependencies).head? }
      settings := (options.of .settings).head?
      select := options.of .select
      ignore := options.of .ignore
      pre := options.of .pre
      post := options.of .post
      noTransaction := options.noTransaction
      output := (options.of .output).head? }
  | _, _ => .error .misuse

/-- Reads the arguments of the program: a command and its options. -/
def Invocation.ofArguments : List String → Except Refusal Invocation
  | [] => .error .misuse
  | word :: rest =>
    match Command.ofWord? word with
    | some command => do (← readOptions command {} rest).invocation command
    | none =>
      if word = "help" || word = "--help" || word.startsWith "-h" then .error .help
      else .error .misuse

end SchemaMigration.CommandLine
