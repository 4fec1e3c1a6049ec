import SchemaCompiler.Proofs.CommandLine.Effects
import SchemaCompiler.Proofs.CommandLine.Words
import SchemaCompiler.Proofs.Migration.Texts
import SchemaCompiler.Proofs.Source

/-!
# What comes of a command

A run of the program on the texts of definitions ends as their statements do: it delivers or prints
them, or it ends with the fault that stands in their place.

* `Asks`, `Fails`, `Rejects`, `BreaksOff` — what a run is to do, and how it can fail;
* `asks_generate`, `asks_policyDiff` — command lines that are written out;
* `Writable`, `writable_of_name` — where a document can go;
* `statementsText` — what is printed to show statements;
* `generate_of_ok`, `generate_of_error` — what comes of compiling the text of a definition;
* `policyDiff_of_ok`, `policyDiff_of_error` — what comes of comparing the texts of two.
-/

namespace SchemaCompiler.CommandLine

/-! ### Command lines -/

/-- A command line asks for a command. -/
def Asks (words : List String) (command : Command) : Prop :=
  ∃ verbosity, Invocation.ofWords words = .ok ⟨verbosity, command⟩

/-- To have a text compiled one writes it after the name of the command, and options after it. -/
theorem asks_generate {text : String} (htext : text.toList.head? ≠ some '-')
    {settings : List Setting} (h : ∀ s ∈ settings, CommandName.generate.grammar.Takes s) :
    Asks ("generate" :: text :: settings.map Setting.word)
      (.generate (.text text) (Setting.last? settings .description)
        (Setting.last? settings .output) (Setting.last? settings .name)
        (Setting.last? settings .migrationsDir)) := by
  have hlength : ["schema"].length = [text].length := rfl
  have hwords := ofWords_settings .generate rfl hlength (List.cons_ne_nil _ _)
    (by simpa using htext) h
  refine ⟨0, hwords.trans ?_⟩
  simp only [CommandName.command, Setting.value?_settings]
  rfl

/-- Every option with a value is one of `generate`, but the one for the format of `policy-diff`. -/
theorem takes_generate {s : Setting} (htakes : s.switch.takesValue = true)
    (hswitch : s.switch ≠ .outputFormat) (hvalue : s.value ≠ "--") :
    CommandName.generate.grammar.Takes s := by
  have hknown : ∀ switch : Switch, switch.takesValue = true → switch ≠ .outputFormat →
      CommandName.generate.grammar.spellings.lookup switch.long = some switch ∧
        switch.choices = [] := by
    intro switch
    cases switch <;> decide
  obtain ⟨hlookup, hchoices⟩ := hknown s.switch htakes hswitch
  exact ⟨hlookup, htakes, .inl hchoices, hvalue⟩

/-- To have a text compiled with a description, and perhaps to a file of a name. -/
theorem asks_generate_described {text : String} (htext : text.toList.head? ≠ some '-')
    {description : String} (hdescription : description ≠ "--") (output name : Option String)
    (houtput : output ≠ some "--") (hname : name ≠ some "--") :
    Asks ("generate" :: text :: ("--description=" ++ description) ::
        ((output.map ("--output=" ++ ·)).toList ++ (name.map ("--name=" ++ ·)).toList))
      (.generate (.text text) (some description) output name none) := by
  have htakes : ∀ s ∈ Setting.mk .description description ::
      ((output.map (Setting.mk .output)).toList ++ (name.map (Setting.mk .name)).toList),
      CommandName.generate.grammar.Takes s := by
    intro s hs
    rcases List.mem_cons.1 hs with rfl | hs
    · exact takes_generate rfl nofun hdescription
    rcases List.mem_append.1 hs with hs | hs
    · obtain ⟨path, rfl, rfl⟩ := Option.map_eq_some_iff.1 (Option.mem_toList.1 hs)
      exact takes_generate rfl nofun fun heq => houtput (congrArg some heq)
    · obtain ⟨file, rfl, rfl⟩ := Option.map_eq_some_iff.1 (Option.mem_toList.1 hs)
      exact takes_generate rfl nofun fun heq => hname (congrArg some heq)
  have hasks := asks_generate htext htakes
  cases output with
  | none =>
    cases name with
    | none => exact hasks
    | some file => exact hasks
  | some path =>
    cases name with
    | none => exact hasks
    | some file => exact hasks

/-- To have two texts compared one writes them after the name of the command; the result is shown
line by line unless JSON is asked for. -/
theorem asks_policyDiff {old new : String} (hold : old.toList.head? ≠ some '-')
    (hnew : new.toList.head? ≠ some '-') (asJson : Bool) :
    Asks ("policy-diff" :: old :: new :: if asJson then ["--output-format=json"] else [])
      (.policyDiff (.text old) (.text new) asJson) := by
  have htexts : ∀ text ∈ [old, new], text.toList.head? ≠ some '-' := by
    simpa using ⟨hold, hnew⟩
  have htakes : CommandName.policyDiff.grammar.Takes ⟨.outputFormat, "json"⟩ :=
    ⟨rfl, rfl, .inr (by decide), by decide⟩
  have hlength : ["old", "new"].length = [old, new].length := rfl
  cases asJson with
  | false =>
    have hwords := ofWords_settings .policyDiff rfl hlength (List.cons_ne_nil _ _) htexts
      (show ∀ s ∈ [], CommandName.policyDiff.grammar.Takes s from nofun)
    exact ⟨0, hwords⟩
  | true =>
    have hwords := ofWords_settings .policyDiff rfl hlength (List.cons_ne_nil _ _) htexts
      (List.forall_mem_singleton.2 htakes)
    exact ⟨0, hwords⟩

/-! ### Ends of a run -/

/-- A run has ended with exit code 1, has printed nothing, and the last line of its log is an error
with a message. -/
def Rejects (after : Aftermath) (message : String) : Prop :=
  after.ending = .ok 1 ∧ after.stdout = "" ∧
    ∃ before, after.stderr = before ++ ("ERROR: " ++ message ++ "\n")

/-- A run was broken off by a value that an operation cannot work with, and has printed nothing. -/
def BreaksOff (after : Aftermath) (cause : Misuse) : Prop :=
  after.ending = .error cause ∧ after.stdout = ""

/-- A command ends with a fault, and has printed nothing. -/
def Fails (w : World) (command : Command) (fault : Fault) : Prop :=
  ∃ p, command.action w w.start = (p, .error fault) ∧ p.stdout = ""

section Runs

variable {w : World} {words : List String} {command : Command} {p : Progress}

theorem execute_of_ok (h : Asks words command) (hrun : command.action w w.start = (p, .ok ())) :
    (execute w words).ending = .ok 0 ∧ (execute w words).stdout = p.stdout ∧
      (execute w words).tree = p.tree := by
  obtain ⟨verbosity, hwords⟩ := h
  rw [execute, hwords]
  simp only [hrun]
  exact ⟨rfl, rfl, rfl⟩

theorem logText_error (verbosity : Nat) (log : List LogEntry) (message : String) :
    logText verbosity (log ++ [⟨.error, message⟩]) =
      logText verbosity log ++ ("ERROR: " ++ message ++ "\n") := by
  have hshown : (shownLevel verbosity).rank ≤ LogLevel.error.rank := by
    cases hlevel : shownLevel verbosity <;> decide
  rw [logText, List.filter_append, List.filter_cons_of_pos (by simpa using hshown), List.filter_nil,
    List.map_append, String.join_append]
  simp [logText, logLine, LogLevel.name, String.append_assoc]

theorem execute_of_schema (h : Asks words command) {cause : SchemaFault}
    (hfails : Fails w command (.schema cause)) : Rejects (execute w words) cause.message := by
  obtain ⟨p, hrun, hstdout⟩ := hfails
  obtain ⟨verbosity, hwords⟩ := h
  rw [execute, hwords]
  simp only [hrun]
  exact ⟨rfl, hstdout, _, logText_error _ _ _⟩

theorem execute_of_misuse (h : Asks words command) {cause : Misuse}
    (hfails : Fails w command (.misuse cause)) : BreaksOff (execute w words) cause := by
  obtain ⟨p, hrun, hstdout⟩ := hfails
  obtain ⟨verbosity, hwords⟩ := h
  rw [execute, hwords]
  simp only [hrun]
  exact ⟨rfl, hstdout⟩

end Runs

/-! ### Compiling a definition -/

/-- A document can be delivered: the place for it can be written to, as an empty text could be, and
the standard output can encode what is printed. -/
def Writable (p : Progress) (name output : Option String) (directory : String) (utc : Time)
    (document : String) : Prop :=
  match name, output with
  | some name, _ =>
    let path := joinPath directory (utc.stamp ++ "_" ++ name ++ ".sql")
    (Migration.store p.tree directory path "").2 = .ok () ∧
      encodable p.encodes ("Migration written to: " ++ path ++ "\n") = true
  | none, some path =>
    (p.tree.write path (.text "")).2 = .ok () ∧
      encodable p.encodes ("SQL written to: " ++ path ++ "\n") = true
  | none, none => encodable p.encodes document = true

/-- A new migration file can be written for a name without slashes, if its directory can be made,
the names are not too long, and no directory has the name already. -/
theorem writable_of_name {p : Progress} {middle : FileTree} {directory name : String}
    {parent : Place} {utc : Time}
    (hmade : p.tree.makeDirectories directory = (middle, .ok ()))
    (hparent : middle.locate directory = .ok parent) (hdir : middle.at? parent = some .directory)
    (hslash : '/' ∉ name.toList)
    (hname : (utc.stamp ++ "_" ++ name ++ ".sql").utf8ByteSize ≤ longestName)
    (hshort : (joinPath directory (utc.stamp ++ "_" ++ name ++ ".sql")).utf8ByteSize ≤ longestPath)
    (hnull : '\x00' ∉ (joinPath directory (utc.stamp ++ "_" ++ name ++ ".sql")).toList)
    (hfree : middle.at? (parent.child (utc.stamp ++ "_" ++ name ++ ".sql")) ≠ some .directory)
    (hencodes : encodable p.encodes ("Migration written to: " ++
      joinPath directory (utc.stamp ++ "_" ++ name ++ ".sql") ++ "\n") = true)
    (output : Option String) (document : String) :
    Writable p (some name) output directory utc document := by
  have hdirectory : directory ≠ "" := by
    rintro rfl
    exact Migration.makeDirectories_empty p.tree (congrArg Prod.snd hmade)
  refine ⟨?_, hencodes⟩
  rw [Migration.store, hmade]
  exact FileTree.write_joinPath hdirectory (Migration.slash_notMem_fileName utc hslash)
    (Migration.isDots_fileName utc.stamp name) hparent hdir hname hshort hnull hfree _

section CompileTo

variable {schemas : List Schema} {header : Migration.Header} {utc : Time}
variable (hutc : header.created.toUtc = .ok utc)
include hutc

/-- What cannot be compiled is the end of the run, wherever the document was to go. -/
theorem compileTo_of_error {fault : Fault}
    (h : (Migration.compileDocument header schemas).outcome = .error fault)
    (name output : Option String) (directory : String) (p : Progress) :
    ∃ q, compileTo schemas header name output directory p = (q, .error fault) ∧
      q.stdout = p.stdout := by
  cases name with
  | some name =>
    have hprepared : (Migration.prepare header schemas).outcome = .error fault := by
      rw [Migration.outcome_prepare hutc, h]
      rfl
    have hcreate := (Migration.create_of_prepare_error hprepared p.tree directory name).2
    exact ⟨_, Action.bind_of_error hcreate, rfl⟩
  | none =>
    have hcompile : (compilePreviewed schemas header).outcome = .error fault := by
      rw [outcome_compilePreviewed, h]
    exact ⟨_, Action.bind_of_error hcompile, rfl⟩

theorem compileTo_of_ok {document : String}
    (h : (Migration.compileDocument header schemas).outcome = .ok document)
    {name output : Option String} {directory : String} {p : Progress}
    (hwritable : Writable p name output directory utc document) :
    (compileTo schemas header name output directory p).2 = .ok () := by
  cases name with
  | some name =>
    obtain ⟨hstored, hencodes⟩ := hwritable
    have hprepared : (Migration.prepare header schemas).outcome = .ok (document, utc) := by
      rw [Migration.outcome_prepare hutc, h]
      rfl
    rw [Migration.store_outcome_congr _ _ _ "" document] at hstored
    have hcreate := Migration.create_of_store_ok hprepared hstored
    have hrun := Action.bind_of_ok
      (x := Action.changing fun tree => Migration.create tree directory name header schemas)
      (f := fun file => Action.print ("Migration written to: " ++ file.path)) (p := p) hcreate
    exact congrArg Prod.snd (hrun.trans (Action.print_of_encodable hencodes))
  | none =>
    have hcompile : (compilePreviewed schemas header).outcome = .ok document := by
      rw [outcome_compilePreviewed, h]
    have hrun := Action.bind_of_ok (x := Action.traced (compilePreviewed schemas header))
      (f := fun document => emit document output) (p := p) hcompile
    rw [show compileTo schemas header none output directory p = _ from hrun]
    cases output with
    | none =>
      exact congrArg Prod.snd (Action.write_of_encodable
        (p := (Action.traced (compilePreviewed schemas header) p).1) hwritable)
    | some path =>
      obtain ⟨hwritten, hencodes⟩ := hwritable
      rw [FileTree.write_outcome_congr _ _ _ (.text document)] at hwritten
      have hemit := Action.bind_of_ok
        (x := Action.changing fun tree =>
          ((tree.write path (.text document)).1, .quiet (tree.write path (.text document)).2))
        (f := fun () => Action.print ("SQL written to: " ++ path))
        (p := (Action.traced (compilePreviewed schemas header) p).1) hwritten
      exact congrArg Prod.snd (hemit.trans (Action.print_of_encodable hencodes))

end CompileTo

/-! ### Showing statements -/

/-- The text that shows statements. -/
def statementsText (asJson : Bool) (statements : List String) : String :=
  if asJson then Json.writeTexts statements ++ "\n"
  else if statements.isEmpty then ""
  else Text.joinWith "\n" statements ++ "\n"

theorem showStatements_of_encodable {asJson : Bool} {statements : List String} {p : Progress}
    (h : encodable p.encodes (statementsText asJson statements) = true) :
    showStatements asJson statements p =
      ({ p with stdout := p.stdout ++ statementsText asJson statements }, .ok ()) := by
  cases asJson with
  | true =>
    change encodable p.encodes (Json.writeTexts statements ++ "\n") = true at h
    have hline := Action.print_of_encodable h
    rw [String.append_assoc] at hline
    exact hline
  | false =>
    cases statements with
    | nil =>
      show (p, _) = ({ p with stdout := p.stdout ++ "" }, _)
      rw [String.append_empty]
    | cons statement statements =>
      change encodable p.encodes (Text.joinWith "\n" (statement :: statements) ++ "\n") = true at h
      have hline := Action.print_of_encodable h
      rw [String.append_assoc] at hline
      exact hline

/-! ### Commands on definitions -/

section Commands

variable {w : World} {text text' : String} {entries entries' : List (Value × Value)}

/-- After its source was loaded, `generate` compiles and has done nothing but log. -/
theorem exists_action_generate {source : Value} {schemas : List Schema}
    (hload : (Source.load w.tree source).outcome = .ok schemas)
    (description output name directory : Option String) :
    ∃ log, (Command.generate source description output name directory).action w w.start =
      compileTo schemas (w.header description) (given? name) (given? output)
        (w.directory directory) { w.start with log } := by
  have hstep := Action.bind_of_ok (x := Action.reading fun tree => Source.load tree source)
    (f := fun schemas => compileTo schemas (w.header description) (given? name) (given? output)
      (w.directory directory))
    (p := w.start) hload
  exact ⟨_, hstep⟩

variable (h : Json.parse (Text.strip text) = .ok (.mapping entries))
variable (hfree : w.tree.exists? text = false)
include h hfree

theorem generate_of_error {description : Option String} {utc : Time}
    (hutc : w.now.toUtc = .ok utc) {fault : Fault}
    (hfault : definitionTexts (.mapping entries) = .error fault)
    (output name directory : Option String) :
    Fails w (.generate (.text text) description output name directory) fault := by
  have hcreated : (w.header description).created.toUtc = .ok utc := hutc
  have hload := Source.load_of_parse h hfree
  cases hschema : Schema.ofValue (.mapping entries) with
  | error cause =>
    rw [definitionTexts, hschema] at hfault
    cases hfault
    rw [hschema] at hload
    exact ⟨_, Action.bind_of_error hload, rfl⟩
  | ok schema =>
    rw [definitionTexts, hschema, ok_bind] at hfault
    rw [hschema] at hload
    obtain ⟨log, haction⟩ := exists_action_generate hload description output name directory
    have hdocument :
        (Migration.compileDocument (w.header description) [schema]).outcome = .error fault := by
      rw [outcome_compileDocument hcreated, hfault]
      rfl
    rw [Fails, haction]
    exact compileTo_of_error hcreated hdocument _ _ _ _

theorem generate_of_ok {description : Option String} {utc : Time}
    (hutc : w.now.toUtc = .ok utc) {schema : Schema}
    (hschema : Schema.ofValue (.mapping entries) = .ok schema) {statements : List String}
    (hstatements : (compile [schema]).outcome = .ok statements)
    {output name directory : Option String}
    (hwritable : Writable w.start (given? name) (given? output) (w.directory directory) utc
      (Migration.documentText { w.header description with created := utc } statements)) :
    ∃ p, (Command.generate (.text text) description output name directory).action w w.start =
        (p, .ok ()) ∧
      Delivered w.tree (given? name) (given? output) (w.directory directory)
        (w.header description) [schema]
        (Migration.documentText { w.header description with created := utc } statements)
        p.tree p.stdout := by
  have hcreated : (w.header description).created.toUtc = .ok utc := hutc
  have hload := Source.load_of_parse h hfree
  rw [hschema] at hload
  obtain ⟨log, haction⟩ := exists_action_generate hload description output name directory
  have hdocument : (Migration.compileDocument (w.header description) [schema]).outcome =
      .ok (Migration.documentText { w.header description with created := utc } statements) := by
    rw [outcome_compileDocument hcreated, hstatements]
    rfl
  have hok := compileTo_of_ok (p := { w.start with log }) hcreated hdocument hwritable
  obtain ⟨document, hsame, hdelivered⟩ := delivered_of_compileTo hok rfl
  cases hsame.symm.trans hdocument
  refine ⟨_, ?_, hdelivered⟩
  rw [haction]
  exact Prod.ext rfl hok

variable (h' : Json.parse (Text.strip text') = .ok (.mapping entries'))
variable (hfree' : w.tree.exists? text' = false)
include h' hfree'

theorem outcome_policyStatements :
    (policyStatements w.tree (.text text) (.text text')).outcome =
      policyTexts (.mapping entries) (.mapping entries') := by
  simp only [policyStatements, policyTexts, Traced.outcome_bind, Source.load_of_parse h hfree,
    Source.load_of_parse h' hfree']
  cases Schema.ofValue (.mapping entries) with
  | error fault => rfl
  | ok old =>
    cases Schema.ofValue (.mapping entries') with
    | error fault => rfl
    | ok new =>
      simp only [ok_bind, pure_eq_ok, Traced.outcome_bind]
      cases (RowSecurity.schemaChangeTexts old new).outcome with
      | error fault => rfl
      | ok statements => rfl

theorem policyDiff_of_error {fault : Fault}
    (hfault : policyTexts (.mapping entries) (.mapping entries') = .error fault) (asJson : Bool) :
    Fails w (.policyDiff (.text text) (.text text') asJson) fault := by
  have houtcome := outcome_policyStatements h hfree h' hfree'
  rw [hfault] at houtcome
  exact ⟨_, Action.bind_of_error houtcome, rfl⟩

theorem policyDiff_of_ok {statements : List String}
    (hstatements : policyTexts (.mapping entries) (.mapping entries') = .ok statements)
    {asJson : Bool} (hencodes : encodable w.encodes (statementsText asJson statements) = true) :
    ∃ p, (Command.policyDiff (.text text) (.text text') asJson).action w w.start = (p, .ok ()) ∧
      p.tree = w.tree ∧ p.stdout = statementsText asJson statements := by
  have houtcome := outcome_policyStatements h hfree h' hfree'
  rw [hstatements] at houtcome
  have hstep := Action.bind_of_ok
    (x := Action.reading fun tree => policyStatements tree (.text text) (.text text'))
    (f := showStatements asJson) (p := w.start) houtcome
  exact ⟨_, hstep.trans (showStatements_of_encodable hencodes), rfl, String.empty_append⟩

end Commands

end SchemaCompiler.CommandLine
