import SchemaCompiler.Text.Digit
import SchemaCompiler.Text.Line
import SchemaCompiler.Text.Quoted

/-!
# Grammar of the command line

How the words of a command line are taken apart.  A word is the separator `--`, an option or plain;
after the separator all words are plain.  A long option may be shortened to any prefix that no
other option has, and take its value after `=`; a short one may have its value, or further short
options, attached.  Plain words go to the positional arguments in order, or follow an option as
its value.

* `Grammar.read` — what a single word is;
* `Grammar.collect` — what all words give: options, positional arguments and words left over;
* `UsageError.message` — the wording of what is wrong with a command line.
-/

namespace SchemaCompiler.CommandLine

/-! ### Options and positional arguments -/

/-- An option of the program or of a command. -/
inductive Switch where
  | help | verbose | description | output | name | migrationsDir | outputFormat
  deriving DecidableEq, Repr

namespace Switch

/-- The ways to write an option. -/
def spellings : Switch → List String
  | .help => ["-h", "--help"]
  | .verbose => ["-v", "--verbose"]
  | .description => ["--description"]
  | .output => ["-o", "--output"]
  | .name => ["--name"]
  | .migrationsDir => ["--migrations-dir"]
  | .outputFormat => ["--output-format"]

/-- Whether an option has a value. -/
def takesValue : Switch → Bool
  | .help | .verbose => false
  | _ => true

/-- The values that an option may have, if not every value will do. -/
def choices : Switch → List String
  | .outputFormat => ["sql", "json"]
  | _ => []

/-- An option as a message names it. -/
def title (switch : Switch) : String := Text.joinWith "/" switch.spellings

end Switch

/-- A positional argument. -/
inductive Positional where
  /-- A single word. -/
  | word (name : String)
  /-- A command, chosen from a list, with all words after it. -/
  | command (name : String) (choices : List String)
  deriving DecidableEq, Repr

/-- A positional argument as a message names it. -/
def Positional.name : Positional → String
  | .word name => name
  | .command name _ => name

/-- The options and arguments that the words of a command line are distributed over. -/
structure Grammar where
  program : String
  switches : List Switch
  positionals : List Positional

/-! ### What can be wrong -/

/-- What is wrong with a command line. -/
inductive UsageProblem where
  | required (names : List String)
  | unrecognized (words : List String)
  | ambiguous (word : String) (spellings : List String)
  | invalidChoice (argument value : String) (choices : List String)
  | valueExpected (argument : String)
  | valueIgnored (argument value : String)
  deriving DecidableEq, Repr

/-- The wording of a problem. -/
def UsageProblem.message : UsageProblem → String
  | .required names => "the following arguments are required: " ++ Text.joinWith ", " names
  | .unrecognized words => "unrecognized arguments: " ++ Text.joinWith " " words
  | .ambiguous word spellings =>
    "ambiguous option: " ++ word ++ " could match " ++ Text.joinWith ", " spellings
  | .invalidChoice argument value choices =>
    "argument " ++ argument ++ ": invalid choice: " ++ Text.quote value ++ " (choose from " ++
      Text.joinWith ", " (choices.map Text.quote) ++ ")"
  | .valueExpected argument => "argument " ++ argument ++ ": expected one argument"
  | .valueIgnored argument value =>
    "argument " ++ argument ++ ": ignored explicit argument " ++ Text.quote value

/-- A problem and the program or command that has it. -/
structure UsageError where
  program : String
  problem : UsageProblem
  deriving DecidableEq, Repr

/-- The wording of a usage error. -/
def UsageError.message (e : UsageError) : String :=
  e.program ++ ": error: " ++ e.problem.message

/-- Why a command line gives no command. -/
inductive Stop where
  /-- Help was asked for. -/
  | help (program : String)
  | usage (error : UsageError)
  deriving DecidableEq, Repr

/-! ### Words -/

/-- An option as it is written: under one of its spellings, with or without something attached,
which may be nothing at all after an equals sign. -/
structure Written where
  switch : Switch
  spelling : String
  attached : Option (List Char)
  deriving DecidableEq, Repr

/-- A word of a command line.  An option may be one that nothing is known of. -/
inductive Token where
  | separator
  | plain (word : String)
  | option (word : String) (written : Option Written)
  deriving DecidableEq, Repr

namespace Token

/-- The word itself. -/
def word : Token → String
  | .separator => "--"
  | .plain word => word
  | .option word _ => word

/-- Whether the word is the separator. -/
def isSeparator : Token → Bool
  | .separator => true
  | _ => false

/-- Whether the word is an option. -/
def isOption : Token → Bool
  | .option _ _ => true
  | _ => false

end Token

/-- Whether a word is a negative number: such a word is plain. -/
def isNegativeNumber (word : List Char) : Bool :=
  let digits (cs : List Char) : Bool := !cs.isEmpty && cs.all Text.isDigit
  match (if word.getLast? = some '\n' then word.dropLast else word) with
  | '-' :: cs =>
    let fraction := cs.dropWhile Text.isDigit
    digits cs || (fraction.head? = some '.' && digits (fraction.drop 1))
  | _ => false

/-- The part of a word before the first equals sign, and the part after it if there is one. -/
def splitSign (word : List Char) : List Char × Option (List Char) :=
  match word.dropWhile (· != '=') with
  | _ :: value => (word.takeWhile (· != '='), some value)
  | [] => (word, none)

namespace Grammar

/-- All spellings of the options. -/
def spellings (g : Grammar) : List (String × Switch) :=
  g.switches.flatMap fun switch => switch.spellings.map fun spelling => (spelling, switch)

/-- The options that a word may be short for. -/
def candidates (g : Grammar) (word : List Char) : List Written :=
  let (start, value) := splitSign word
  if word.take 2 = ['-', '-'] then
    (g.spellings.filter fun s => start.isPrefixOf s.1.toList).map fun (spelling, switch) =>
      { switch, spelling, attached := value }
  else g.spellings.filterMap fun (spelling, switch) =>
    if spelling.toList = word.take 2 then
      some { switch, spelling, attached := some (word.drop 2) }
    else if word.isPrefixOf spelling.toList then some { switch, spelling, attached := none }
    else none

/-- A problem of this program or command. -/
def refuse {α : Type} (g : Grammar) (problem : UsageProblem) : Except Stop α :=
  .error (.usage ⟨g.program, problem⟩)

/-- What a word before the separator is. -/
def read (g : Grammar) (word : String) : Except Stop Token :=
  let cs := word.toList
  let (start, value) := splitSign cs
  if cs.head? ≠ some '-' then .ok (.plain word)
  else match g.spellings.lookup word with
    | some switch => .ok (.option word (some { switch, spelling := word, attached := none }))
    | none =>
      if cs.length = 1 then .ok (.plain word)
      else match g.spellings.lookup (String.ofList start), value with
        | some switch, some value =>
          .ok (.option word (some { switch, spelling := String.ofList start,
                                    attached := some value }))
        | _, _ =>
          match g.candidates cs with
          | [written] => .ok (.option word (some written))
          | [] =>
            if isNegativeNumber cs || cs.contains ' ' then .ok (.plain word)
            else .ok (.option word none)
          | several => g.refuse (.ambiguous word (several.map Written.spelling))

/-- What the words of a command line are. -/
def tokens (g : Grammar) : List String → Except Stop (List Token)
  | [] => .ok []
  | word :: words =>
    if word = "--" then .ok (.separator :: words.map .plain)
    else do
      let token ← g.read word
      return token :: (← g.tokens words)

end Grammar

/-! ### Distribution -/

/-- What a command line gives: options with their values, the words of each positional argument,
and words that belong to nothing. -/
structure Findings where
  switches : List (Switch × Option String) := []
  positionals : List (List String) := []
  extras : List String := []
  deriving DecidableEq, Repr

namespace Findings

/-- One finding after another. -/
def append (a b : Findings) : Findings :=
  { switches := a.switches ++ b.switches
    positionals := a.positionals ++ b.positionals
    extras := a.extras ++ b.extras }

/-- The value that an option has in the end. -/
def value? (f : Findings) (switch : Switch) : Option String :=
  ((f.switches.filter fun s => s.1 = switch).getLast?).bind Prod.snd

/-- How often an option is given. -/
def count (f : Findings) (switch : Switch) : Nat :=
  (f.switches.filter fun s => s.1 = switch).length

end Findings

/-- The words of one positional argument at the front, and the tokens after it.  A separator next
to a single word belongs to it, but the first one is dropped from its words; a word that is itself
spelled like the separator is taken for it. -/
def Positional.take (p : Positional) (ts : List Token) : Option (List String × List Token) :=
  let start := ts.takeWhile Token.isSeparator
  match ts.dropWhile Token.isSeparator with
  | .plain text :: rest =>
    match p with
    | .word _ =>
      let mine := start ++ .plain text :: rest.takeWhile Token.isSeparator
      some ((mine.map Token.word).erase "--", rest.dropWhile Token.isSeparator)
    | .command _ _ => some (ts.map Token.word, [])
  | _ => none

/-- Serve the positional arguments in order from the front of the tokens: the words of those that
are served, those that are not, and the tokens that are left. -/
def takePositionals : List Positional → List Token →
    List (Positional × List String) × List Positional × List Token
  | [], ts => ([], [], ts)
  | p :: ps, ts =>
    match p.take ts with
    | none => ([], p :: ps, ts)
    | some (words, rest) =>
      let (served, unserved, rest) := takePositionals ps rest
      ((p, words) :: served, unserved, rest)

namespace Grammar

/-- The option that is written with a single character. -/
def short? (g : Grammar) (c : Char) : Option Switch :=
  g.spellings.lookup (String.ofList ['-', c])

/-- Take an option that stands alone, with its value from the tokens that follow. -/
def takeAlone (g : Grammar) (switch : Switch) (following : List Token) :
    Except Stop (Findings × List Token) :=
  if switch.takesValue then
    match following with
    | .plain word :: rest => .ok ({ switches := [(switch, some word)] }, rest)
    | _ => g.refuse (.valueExpected switch.title)
  else .ok ({ switches := [(switch, none)] }, following)

/-- The value that is written directly at an option.  What is spelled like the separator is taken
for it, so that the option is given and yet has no value. -/
def attachedValue (attached : List Char) : Option String :=
  if attached = ['-', '-'] then none else some (String.ofList attached)

/-- Take an option with something attached to it.  A short option without a value takes it for
further short options. -/
def takeAttached (g : Grammar) (following : List Token) (isShort : Bool) :
    Switch → List Char → Except Stop (Findings × List Token)
  | switch, attached =>
    if switch.takesValue then
      .ok ({ switches := [(switch, attachedValue attached)] }, following)
    else
      match attached with
      | [] => g.refuse (.valueIgnored switch.title "")
      | c :: cs =>
        match (if isShort then g.short? c else none), cs with
        | none, _ => g.refuse (.valueIgnored switch.title (String.ofList (c :: cs)))
        | some next, [] => do
          let (more, rest) ← g.takeAlone next following
          return (Findings.append { switches := [(switch, none)] } more, rest)
        | some next, d :: ds => do
          let (more, rest) ← takeAttached g following isShort next (d :: ds)
          return (Findings.append { switches := [(switch, none)] } more, rest)

/-- Take an option with its value from the tokens that follow. -/
def takeSwitch (g : Grammar) (written : Written) (following : List Token) :
    Except Stop (Findings × List Token) :=
  match written.attached with
  | none => g.takeAlone written.switch following
  | some attached =>
    let isShort := written.spelling.toList[1]? != some '-'
    g.takeAttached following isShort written.switch attached

/-- Act on options in their order: stop for help, and refuse a value that is not offered. -/
def checkSwitches (g : Grammar) : List (Switch × Option String) → Except Stop Unit
  | [] => .ok ()
  | (.help, _) :: _ => .error (.help g.program)
  | (switch, some value) :: rest =>
    if switch.choices.isEmpty || switch.choices.contains value then g.checkSwitches rest
    else g.refuse (.invalidChoice switch.title value switch.choices)
  | (_, none) :: rest => g.checkSwitches rest

/-- Refuse a command that is not offered. -/
def checkPositionals (g : Grammar) : List (Positional × List String) → Except Stop Unit
  | [] => .ok ()
  | (.command name choices, word :: _) :: rest =>
    if choices.contains word then g.checkPositionals rest
    else g.refuse (.invalidChoice name word choices)
  | _ :: rest => g.checkPositionals rest

/-- Distribute tokens in at most `fuel` rounds, each of which takes at least one token. -/
def distribute (g : Grammar) : Nat → List Positional → List Token →
    Except Stop (Findings × List Positional)
  | 0, unserved, ts => .ok ({ extras := ts.map Token.word }, unserved)
  | fuel + 1, positionals, ts =>
    let before := ts.takeWhile fun t => !t.isOption
    let (served, unserved, rest) := takePositionals positionals ts
    let found : Findings := { positionals := served.map Prod.snd }
    match ts.dropWhile fun t => !t.isOption with
    | .option word written :: following =>
      if !before.isEmpty && rest.length < ts.length then do
        g.checkPositionals served
        let (more, unserved) ← g.distribute fuel unserved rest
        return (found.append more, unserved)
      else do
        let extras := before.map Token.word
        let (found, rest) ← match written with
          | none => .ok ({ extras := [word] }, following)
          | some written => g.takeSwitch written following
        g.checkSwitches found.switches
        let (more, unserved) ← g.distribute fuel positionals rest
        return ((Findings.append { extras } found).append more, unserved)
    | _ => do
      g.checkPositionals served
      return ({ found with extras := rest.map Token.word }, unserved)

/-- What a command line gives.  All positional arguments have to be served. -/
def collect (g : Grammar) (words : List String) : Except Stop Findings := do
  let ts ← g.tokens words
  let (found, unserved) ← g.distribute (ts.length + 1) g.positionals ts
  if unserved.isEmpty then return found
  else g.refuse (.required (unserved.map Positional.name))

end Grammar
end SchemaCompiler.CommandLine
