import SchemaCompiler.CommandLine.Grammar
import SchemaCompiler.Value.Basic

/-!
# Commands

The three commands of the program and how a command line gives one of them.  The program's own
options stand before the command and say how much is logged; the words after the command are read
by the grammar of the command.
-/

namespace SchemaCompiler.CommandLine

/-- What the program is asked to do. -/
inductive Command where
  /-- Compile schemas to a new migration file, to a file or to the standard output. -/
  | generate (source : Value) (description output name directory : Option String)
  /-- Show the statements that turn the policies of one schema into those of another. -/
  | policyDiff (old new : Value) (asJson : Bool)
  /-- List the migrations of a directory. -/
  | list (directory : Option String)

/-- The names of the commands. -/
inductive CommandName where
  | generate | policyDiff | list
  deriving DecidableEq, Repr

namespace CommandName

/-- A name as it is written. -/
def label : CommandName → String
  | .generate => "generate"
  | .policyDiff => "policy-diff"
  | .list => "list"

/-- All commands. -/
def every : List CommandName := [.generate, .policyDiff, .list]

/-- The command that is written as a word. -/
def ofLabel? (word : String) : Option CommandName := every.find? fun name => name.label == word

end CommandName

/-- The name of the program. -/
def programName : String := "tenjin"

/-- The grammar of the words up to the command. -/
def program : Grammar where
  program := programName
  switches := [.help, .verbose]
  positionals := [.command "command" (CommandName.every.map CommandName.label)]

/-- The grammar of the words after a command. -/
def CommandName.grammar (name : CommandName) : Grammar :=
  let program := programName ++ " " ++ name.label
  match name with
  | .generate =>
    { program, switches := [.help, .description, .output, .name, .migrationsDir]
      positionals := [.word "schema"] }
  | .policyDiff =>
    { program, switches := [.help, .outputFormat], positionals := [.word "old", .word "new"] }
  | .list => { program, switches := [.help, .migrationsDir], positionals := [] }

/-- The source that a positional argument names.  If its word was taken for the separator, nothing
is left of it, and it names an empty list of schemas. -/
def sourceOf : List String → Value
  | [word] => .text word
  | words => .list (words.map .text)

/-- The command that the words after its name ask for. -/
def CommandName.command (name : CommandName) (found : Findings) : Command :=
  let source (i : Nat) : Value := sourceOf (found.positionals.getD i [])
  match name with
  | .generate => .generate (source 0) (found.value? .description) (found.value? .output)
      (found.value? .name) (found.value? .migrationsDir)
  | .policyDiff => .policyDiff (source 0) (source 1) (found.value? .outputFormat = some "json")
  | .list => .list (found.value? .migrationsDir)

/-- A command and how much of its log is shown. -/
structure Invocation where
  verbosity : Nat
  command : Command

/-- The command that a command line asks for.  Words that belong to nothing are refused last. -/
def Invocation.ofWords (words : List String) : Except Stop Invocation := do
  let found ← program.collect words
  match found.positionals with
  | [label :: rest] =>
    match CommandName.ofLabel? label with
    | some name =>
      let own ← name.grammar.collect rest
      match found.extras ++ own.extras with
      | [] => return { verbosity := found.count .verbose, command := name.command own }
      | extras => program.refuse (.unrecognized extras)
    | none => program.refuse (.required ["command"])
  | _ => program.refuse (.required ["command"])

/-- A line that shows how a program or command is used. -/
def Grammar.usage (g : Grammar) : String :=
  let option (switch : Switch) : String :=
    "[" ++ Text.joinWith ", " switch.spellings ++ (if switch.takesValue then " VALUE" else "") ++ "]"
  Text.joinWith " " ("usage:" :: g.program :: g.switches.map option ++
    g.positionals.map Positional.name)

/-- The grammar of the program or command of a given name. -/
def grammarOf (name : String) : Grammar :=
  ((CommandName.every.map CommandName.grammar).find? fun g => g.program == name).getD program

end SchemaCompiler.CommandLine
