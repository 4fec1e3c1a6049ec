import SchemaCompiler.CommandLine.Action
import SchemaCompiler.CommandLine.Command
import SchemaCompiler.CommandLine.Preview
import SchemaCompiler.Json.Writer
import SchemaCompiler.Migration.File
import SchemaCompiler.RowSecurity.Changes
import SchemaCompiler.Source

/-!
# Running the program

A run of the program as a function: from the files, the settings, the clock and the words of the
command line to the files afterwards, what was written to the two outputs and how the run ended.

* `Command.action` — the steps of a command;
* `execute` — a run of the whole program;
* `run` — the same, where nothing is reported of a run that an operation broke off.
-/

namespace SchemaCompiler.CommandLine

/-- What the program runs in.  The standard output need not be able to encode all characters. -/
structure World where
  tree : FileTree := {}
  settings : Settings := {}
  now : Time
  encodes : Char → Bool := fun _ => true

/-- An option value, where an empty one counts as not given. -/
def given? (value : Option String) : Option String := value.filter (· ≠ "")

namespace World

/-- What a command starts with. -/
def start (w : World) : Progress := { tree := w.tree, encodes := w.encodes }

/-- The header of a migration with a description, or else the usual one. -/
def header (w : World) (description : Option String) : Migration.Header where
  description := .text ((given? description).getD w.settings.description)
  created := w.now
  toolName := .text w.settings.toolName

/-- The directory for migrations that an option gives, or else the usual one. -/
def directory (w : World) (directory : Option String) : String :=
  (given? directory).getD w.settings.migrationsDir

end World

/-- Compile schemas to a new migration file. -/
def createMigration (schemas : List Schema) (header : Migration.Header) (directory name : String) :
    Action Unit := do
  let file ← Action.changing fun tree => Migration.create tree directory name header schemas
  Action.print ("Migration written to: " ++ file.path)

/-- Compile schemas to a document, after a preview of their statements. -/
def compilePreviewed (schemas : List Schema) (header : Migration.Header) : Traced String := do
  let statements ← compile schemas
  let _ ← Traced.each (Traced.note .info) (previewText "Generated statements" statements)
  Migration.compileDocument header schemas

/-- Write a document to a file, or else to the standard output. -/
def emit (document : String) : Option String → Action Unit
  | some path => do
    Action.changing fun tree =>
      let (tree, written) := tree.write path (.text document)
      (tree, Traced.quiet written)
    Action.print ("SQL written to: " ++ path)
  | none => Action.write document

/-- Compile schemas to a new migration file if there is a name for it, or else to a document for a
file or the standard output. -/
def compileTo (schemas : List Schema) (header : Migration.Header)
    (name output : Option String) (directory : String) : Action Unit :=
  match name with
  | some name => createMigration schemas header directory name
  | none => do
    let document ← Action.traced (compilePreviewed schemas header)
    emit document output

/-- The statements between the policies of two sources, each of which has to hold one schema. -/
def policyStatements (tree : FileTree) (old new : Value) : Traced (List String) := do
  let oldSchemas ← Source.load tree old
  let newSchemas ← Source.load tree new
  match oldSchemas, newSchemas with
  | [old], [new] =>
    let statements ← RowSecurity.schemaChangeTexts old new
    Traced.note .info ("Total: " ++ toString statements.length ++ " policy statements")
    return statements
  | _, _ => Traced.fail .notOneSchemaEach

/-- Show statements as JSON, or else each as it is; if there are none, nothing is shown then. -/
def showStatements (asJson : Bool) (statements : List String) : Action Unit :=
  if asJson then Action.print (Json.writeTexts statements)
  else if statements.isEmpty then Action.pure ()
  else Action.print (Text.joinWith "\n" statements)

/-- The line for a migration in a list. -/
def listLine (file : MigrationFile) : String :=
  Text.padRight 16 (file.timestamp.getD "-") ++ file.fileName

/-- The steps of a command. -/
def Command.action (w : World) : Command → Action Unit
  | .generate source description output name directory => do
    let schemas ← Action.reading fun tree => Source.load tree source
    compileTo schemas (w.header description) (given? name) (given? output) (w.directory directory)
  | .policyDiff old new asJson => do
    let statements ← Action.reading fun tree => policyStatements tree old new
    showStatements asJson statements
  | .list directory => do
    let files ← Action.reading fun tree =>
      Traced.pure (Migration.listFiles tree (w.directory directory))
    Action.each (fun file => Action.print (listLine file)) files

/-- What a run leaves: the files, the texts of the two outputs, and the exit code, if it was not
broken off by a value that an operation cannot work with. -/
structure Aftermath where
  tree : FileTree
  stdout : String := ""
  stderr : String := ""
  ending : Except Misuse Nat

/-- The least level that is shown for a number of verbosity options. -/
def shownLevel : Nat → LogLevel
  | 0 => .warning
  | 1 => .info
  | _ => .debug

/-- A log entry as a line. -/
def logLine (entry : LogEntry) : String := entry.level.name ++ ": " ++ entry.message ++ "\n"

/-- The lines of a log that are shown. -/
def logText (verbosity : Nat) (log : List LogEntry) : String :=
  String.join ((log.filter fun e => (shownLevel verbosity).rank ≤ e.level.rank).map logLine)

/-- What is left when a command has ended.  Every fault that has a wording is logged; a value that
an operation cannot work with breaks the run off. -/
def Aftermath.ofCommand (verbosity : Nat) (p : Progress) : Except Fault Unit → Aftermath
  | .ok () =>
    { tree := p.tree, stdout := p.stdout, stderr := logText verbosity p.log, ending := .ok 0 }
  | .error (.misuse cause) =>
    { tree := p.tree, stdout := p.stdout, stderr := logText verbosity p.log
      ending := .error cause }
  | .error fault =>
    { tree := p.tree, stdout := p.stdout
      stderr := logText verbosity (p.log ++ [⟨.error, fault.message⟩]), ending := .ok 1 }

/-- What is left by a command line that gives no command. -/
def Aftermath.ofStop (tree : FileTree) : Stop → Aftermath
  | .help program => { tree, stdout := (grammarOf program).usage ++ "\n", ending := .ok 0 }
  | .usage error => { tree, stderr := error.message ++ "\n", ending := .ok 2 }

/-- A run of the program. -/
def execute (w : World) (words : List String) : Aftermath :=
  match Invocation.ofWords words with
  | .error stop => .ofStop w.tree stop
  | .ok invocation =>
    let (p, result) := invocation.command.action w w.start
    .ofCommand invocation.verbosity p result

/-- The end of a run that was not broken off: exit code and outputs. -/
structure Report where
  exitCode : Nat
  stdout : String := ""
  stderr : String := ""
  deriving DecidableEq, Repr

/-- A run of the program: the files afterwards, and the report. -/
def run (w : World) (words : List String) : FileTree × Except Misuse Report :=
  let after := execute w words
  (after.tree, after.ending.map fun exitCode =>
    { exitCode, stdout := after.stdout, stderr := after.stderr })

end SchemaCompiler.CommandLine
