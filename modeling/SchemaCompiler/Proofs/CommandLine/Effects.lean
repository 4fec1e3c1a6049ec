import SchemaCompiler.CommandLine.Run
import SchemaCompiler.Proofs.Migration.Creation

/-!
# What a run leaves

A command first looks and computes, then does at most one thing to the files, and prints at the end.
So a run that does not end well has printed nothing and left all files as they were, whatever made
it fail.  There is one exception: a standard output that cannot encode a text that it is given breaks
a run off when its work is done.

* `Action.PrintsLast` — a command does all its work before it prints; how such commands are put
  together from steps;
* `Command.printsLast_action` — every command is one;
* `Untouched`, `CutShort` — a run that has left everything as it was, and one that only the standard
  output has stopped;
* `execute_allOrNothing` — **a run that fails changes no file and prints nothing; the document of
  one that does not is in exactly one place**;
* `execute_exceptions` — it takes a standard output that can encode what is printed, and a name that
  is empty is none.
-/

namespace SchemaCompiler

/-- One file was written, and holds a text: it can be found at its path, and every other file is as
it was. -/
def FileTree.WritesOnly (before after : FileTree) (path text : String) : Prop :=
  after.find? path = some (.file (.text text)) ∧
    ∃ place, after.locate path = .ok place ∧ ∀ q, q ≠ place → after.file? q = before.file? q

namespace CommandLine

/-- The same, on a standard output that can encode all characters. -/
def Progress.unlimited (p : Progress) : Progress := { p with encodes := fun _ => true }

/-- The same, on a standard output that can encode all characters. -/
def World.unlimited (w : World) : World := { w with encodes := fun _ => true }

theorem encodable_all (text : String) : encodable (fun _ => true) text = true :=
  List.all_eq_true.2 fun _ _ => rfl

namespace Action

variable {α β : Type}

/-! ### Sequences of steps -/

section Bind

variable {x : Action α} {f : α → Action β} {p : Progress}

theorem bind_of_ok {a : α} (h : (x p).2 = .ok a) : (x >>= f) p = f a (x p).1 := by
  show Action.bind x f p = f a (x p).1
  rw [Action.bind, show x p = ((x p).1, .ok a) from Prod.ext rfl h]

theorem bind_of_error {fault : Fault} (h : (x p).2 = .error fault) :
    (x >>= f) p = ((x p).1, .error fault) := by
  show Action.bind x f p = ((x p).1, .error fault)
  rw [Action.bind, show x p = ((x p).1, .error fault) from Prod.ext rfl h]

/-- A sequence that ended well has an intermediate result. -/
theorem exists_of_bind {b : β} (h : ((x >>= f) p).2 = .ok b) :
    ∃ a, (x p).2 = .ok a ∧ (x >>= f) p = f a (x p).1 ∧ (f a (x p).1).2 = .ok b := by
  cases hx : (x p).2 with
  | error fault =>
    rw [bind_of_error hx] at h
    exact nomatch h
  | ok a =>
    have hstep := bind_of_ok (f := f) hx
    rw [hstep] at h
    exact ⟨a, rfl, hstep, h⟩

end Bind

/-- A step with nothing after it is the step. -/
theorem bind_pure (x : Action Unit) : (x >>= fun () => Action.pure ()) = x := by
  funext p
  show Action.bind x (fun () => Action.pure ()) p = x p
  rw [Action.bind]
  cases x p with
  | mk q result => cases result <;> rfl

/-- Sequences of sequences are sequences. -/
theorem bind_assoc {γ : Type} (x : Action α) (f : α → Action β) (g : β → Action γ) :
    x >>= f >>= g = x >>= fun a => f a >>= g := by
  funext p
  show Action.bind (Action.bind x f) g p = Action.bind x (fun a => Action.bind (f a) g) p
  simp only [Action.bind]
  cases x p with
  | mk q result => cases result <;> rfl

theorem each_singleton (f : α → Action Unit) (a : α) : each f [a] = f a := bind_pure (f a)

theorem each_append (f : α → Action Unit) (as bs : List α) :
    each f (as ++ bs) = each f as >>= fun () => each f bs := by
  induction as with
  | nil => rfl
  | cons a as ih =>
    show (f a >>= fun () => each f (as ++ bs)) = (f a >>= fun () => each f as) >>= _
    rw [bind_assoc, ih]

/-! ### Texts on the standard output -/

section Write

variable {text : String} {texts : List String} {p : Progress}

theorem write_of_encodable (h : encodable p.encodes text = true) :
    write text p = ({ p with stdout := p.stdout ++ text }, .ok ()) := if_pos h

theorem write_of_ok (h : (write text p).2 = .ok ()) :
    write text p = ({ p with stdout := p.stdout ++ text }, .ok ()) := by
  cases hencodes : encodable p.encodes text with
  | true => exact write_of_encodable hencodes
  | false =>
    rw [write, hencodes] at h
    exact nomatch h

theorem print_eq (line : String) : print line = each write [line, "\n"] := by
  show (write line >>= fun () => write "\n") = write line >>= fun () => each write ["\n"]
  rw [each_singleton]

/-- A line that was written stands there with its end. -/
theorem print_of_ok {line : String} (h : (print line p).2 = .ok ()) :
    print line p = ({ p with stdout := p.stdout ++ line ++ "\n" }, .ok ()) := by
  obtain ⟨_, hline, hrun, hend⟩ := exists_of_bind (x := write line) h
  have hprint : print line p = write "\n" (write line p).1 := hrun
  rw [write_of_ok hline] at hend hprint
  rw [hprint, write_of_ok hend]

theorem print_of_encodable {line : String} (h : encodable p.encodes (line ++ "\n") = true) :
    print line p = ({ p with stdout := p.stdout ++ line ++ "\n" }, .ok ()) := by
  rw [encodable, String.toList_append, List.all_append, Bool.and_eq_true] at h
  have hstep := bind_of_ok (f := fun () => write "\n") (congrArg Prod.snd (write_of_encodable h.1))
  rw [write_of_encodable h.1] at hstep
  exact hstep.trans (write_of_encodable h.2)

/-- Texts are written one after the other, up to the first that cannot be encoded. -/
theorem each_write_cases (texts : List String) (p : Progress) :
    each write texts p = ({ p with stdout := p.stdout ++ String.join texts }, .ok ()) ∨
    ∃ before text rest, texts = before ++ text :: rest ∧ encodable p.encodes text = false ∧
      each write texts p =
        ({ p with stdout := p.stdout ++ String.join before }, .error (.misuse .notEncodable)) := by
  induction texts generalizing p with
  | nil =>
    left
    show (p, _) = _
    rw [String.join_nil, String.append_empty]
  | cons text texts ih =>
    have hstep : each write (text :: texts) p = (write text >>= fun () => each write texts) p := rfl
    cases hencodes : encodable p.encodes text with
    | false =>
      right
      have hfails : write text p = (p, .error (.misuse .notEncodable)) := by rw [write, hencodes]; rfl
      refine ⟨[], text, texts, rfl, hencodes, ?_⟩
      rw [hstep, bind_of_error (congrArg Prod.snd hfails), hfails, String.join_nil,
        String.append_empty]
    | true =>
      have hwrites := write_of_encodable hencodes
      rw [hstep, bind_of_ok (congrArg Prod.snd hwrites), hwrites]
      rcases ih { p with stdout := p.stdout ++ text } with hrest | ⟨before, cut, rest, rfl, hcut, hrest⟩
      · left
        rw [hrest, String.join_cons, String.append_assoc]
      · right
        refine ⟨text :: before, cut, rest, rfl, hcut, ?_⟩
        rw [hrest, String.join_cons, String.append_assoc]

/-- Where all characters can be encoded, all texts are written. -/
theorem each_write_unlimited (texts : List String) (p : Progress) :
    each write texts p.unlimited =
      ({ p.unlimited with stdout := p.stdout ++ String.join texts }, .ok ()) := by
  rcases each_write_cases texts p.unlimited with hall | ⟨_, text, _, -, hcut, -⟩
  · exact hall
  · exact nomatch (encodable_all text).symm.trans hcut

end Write

/-! ### Work first, then print -/

/-- An operation on the files that fails has at most made directories. -/
def Careful (f : FileTree → FileTree × Traced α) : Prop :=
  ∀ tree fault, (f tree).2.outcome = .error fault → tree.MakesDirectories (f tree).1

/-- One operation on the files after another. -/
def followed (f : FileTree → FileTree × Traced α) (g : α → FileTree → FileTree × Traced β)
    (tree : FileTree) : FileTree × Traced β :=
  match (f tree).2.outcome with
  | .ok a => ((g a (f tree).1).1,
      ⟨(f tree).2.log ++ (g a (f tree).1).2.log, (g a (f tree).1).2.outcome⟩)
  | .error fault => ((f tree).1, ⟨(f tree).2.log, .error fault⟩)

theorem changing_bind (f : FileTree → FileTree × Traced α)
    (g : α → FileTree → FileTree × Traced β) :
    (changing f >>= fun a => changing (g a)) = changing (followed f g) := by
  funext p
  show Action.bind (changing f) _ p = _
  simp only [Action.bind, changing, traced, followed]
  cases (f p.tree).2.outcome with
  | error fault => rfl
  | ok a => simp only [List.append_assoc]

/-- A command does all its work in one careful operation on the files, and then writes texts. -/
def PrintsLast (x : Action Unit) : Prop :=
  ∃ f : FileTree → FileTree × Traced (List String), Careful f ∧ x = changing f >>= each write

theorem printsLast_each (texts : List String) : PrintsLast (each write texts) := by
  refine ⟨fun tree => (tree, Traced.pure texts), nofun, funext fun p => ?_⟩
  have hstep := bind_of_ok (x := changing fun tree => (tree, Traced.pure texts))
    (f := each write) (p := p) rfl
  rw [hstep]
  show each write texts p = each write texts { p with log := p.log ++ [] }
  rw [List.append_nil]

theorem printsLast_print (line : String) : PrintsLast (print line) :=
  print_eq line ▸ printsLast_each [line, "\n"]

/-- Before such a command one may look and compute. -/
theorem printsLast_reading (f : FileTree → Traced α) {g : α → Action Unit}
    (h : ∀ a, PrintsLast (g a)) : PrintsLast (reading f >>= g) := by
  choose work hcareful hwork using h
  refine ⟨followed (fun tree => (tree, f tree)) work, ?_, ?_⟩
  · intro tree fault hfault
    unfold followed at hfault ⊢
    cases houtcome : (f tree).outcome with
    | error cause => exact .refl
    | ok a =>
      simp only [houtcome] at hfault ⊢
      exact hcareful a tree fault hfault
  · have hreading : reading f = changing fun tree => (tree, f tree) := rfl
    rw [← changing_bind, bind_assoc, ← hreading]
    exact congrArg (reading f >>= ·) (funext hwork)

/-- After a careful operation on the files one may print. -/
theorem printsLast_changing {f : FileTree → FileTree × Traced α} (h : Careful f)
    (line : α → String) : PrintsLast (changing f >>= fun a => print (line a)) := by
  refine ⟨followed f fun a tree => (tree, Traced.pure [line a, "\n"]), ?_, ?_⟩
  · intro tree fault hfault
    unfold followed at hfault ⊢
    cases houtcome : (f tree).2.outcome with
    | error cause => exact h tree cause houtcome
    | ok a =>
      rw [houtcome] at hfault
      exact nomatch hfault
  · rw [← changing_bind, bind_assoc]
    refine congrArg (changing f >>= ·) (funext fun a => funext fun p => ?_)
    rw [print_eq, bind_of_ok (a := [line a, "\n"]) rfl]
    show each write _ p = each write _ { p with log := p.log ++ [] }
    rw [List.append_nil]

/-- **How a command that prints last can end**: well, or with its work undone and nothing printed, or
at a text that the standard output cannot encode.  In this last case all work is done, and on
another standard output the command would have ended well. -/
theorem PrintsLast.cases {x : Action Unit} (h : PrintsLast x) (p : Progress) :
    (x p).2 = .ok () ∨
    (∃ fault, (x p).2 = .error fault ∧ (x p).1.stdout = p.stdout ∧
      p.tree.MakesDirectories (x p).1.tree) ∨
    ∃ text rest, encodable p.encodes text = false ∧ (x p).2 = .error (.misuse .notEncodable) ∧
      x p.unlimited =
        ({ (x p).1.unlimited with stdout := (x p).1.stdout ++ text ++ rest }, .ok ()) := by
  obtain ⟨f, hcareful, rfl⟩ := h
  cases houtcome : (f p.tree).2.outcome with
  | error fault =>
    right
    left
    rw [bind_of_error (x := changing f) (p := p) houtcome]
    exact ⟨fault, rfl, rfl, hcareful p.tree fault houtcome⟩
  | ok texts =>
    have hlimited := bind_of_ok (f := each write) (x := changing f) (p := p) houtcome
    have hunlimited := bind_of_ok (f := each write) (x := changing f) (p := p.unlimited) houtcome
    rw [hlimited]
    rcases each_write_cases texts (changing f p).1 with hall | ⟨before, text, rest, rfl, hcut, hrun⟩
    · left
      rw [hall]
    · right
      right
      refine ⟨text, String.join rest, hcut, by rw [hrun], ?_⟩
      rw [hunlimited, hrun]
      refine (each_write_unlimited _ (changing f p).1).trans ?_
      rw [String.join_append, String.join_cons]
      simp only [Progress.unlimited, String.append_assoc]

end Action

open CommandLine.Action (Careful PrintsLast)

/-! ### Commands -/

theorem careful_create (header : Migration.Header) (schemas : List Schema)
    (directory name : String) :
    Careful fun tree => Migration.create tree directory name header schemas := by
  intro tree fault hfault
  rcases Migration.create_cases tree directory ⟨name, header, schemas⟩ with
    ⟨_, _, hmakes⟩ | ⟨file, _, _, hfile, _⟩
  · exact hmakes
  · exact nomatch hfile.symm.trans hfault

theorem printsLast_emit (document : String) (path : Option String) :
    PrintsLast (emit document path) := by
  cases path with
  | none =>
    show PrintsLast (Action.write document)
    rw [← Action.each_singleton Action.write document]
    exact Action.printsLast_each _
  | some path =>
    refine Action.printsLast_changing ?_ fun _ => "SQL written to: " ++ path
    intro tree fault hfault
    have hsame : (tree.write path (.text document)).1 = tree := FileTree.write_of_error hfault
    show tree.MakesDirectories (tree.write path (.text document)).1
    rw [hsame]
    exact .refl

theorem printsLast_compileTo (schemas : List Schema) (header : Migration.Header)
    (name output : Option String) (directory : String) :
    PrintsLast (compileTo schemas header name output directory) := by
  cases name with
  | some name => exact Action.printsLast_changing (careful_create header schemas directory name) _
  | none =>
    exact Action.printsLast_reading (fun _ => compilePreviewed schemas header)
      fun document => printsLast_emit document output

theorem printsLast_showStatements (asJson : Bool) (statements : List String) :
    PrintsLast (showStatements asJson statements) := by
  unfold showStatements
  split
  · exact Action.printsLast_print _
  · split
    · exact Action.printsLast_each []
    · exact Action.printsLast_print _

/-- Lines are printed as their texts, each with its end, are written. -/
theorem each_print (line : MigrationFile → String) (files : List MigrationFile) :
    Action.each (fun file => Action.print (line file)) files =
      Action.each Action.write (files.flatMap fun file => [line file, "\n"]) := by
  induction files with
  | nil => rfl
  | cons file files ih =>
    rw [List.flatMap_cons, Action.each_append, ← Action.print_eq, ← ih]
    rfl

/-- **Every command does all its work before it prints.** -/
theorem Command.printsLast_action (w : World) (command : Command) :
    PrintsLast (command.action w) := by
  cases command with
  | generate source description output name directory =>
    exact Action.printsLast_reading _ fun schemas => printsLast_compileTo schemas _ _ _ _
  | policyDiff old new asJson =>
    exact Action.printsLast_reading _ fun statements => printsLast_showStatements asJson statements
  | list directory =>
    refine Action.printsLast_reading _ fun files => ?_
    rw [each_print]
    exact Action.printsLast_each _

/-! ### Where a document goes -/

/-- A document was delivered: to the new migration file if there is a name for it, or else to the
file at a path, or else to the standard output, and nowhere else.  A file that was written is named
on the standard output. -/
def Delivered (before : FileTree) (name output : Option String) (directory : String)
    (header : Migration.Header) (schemas : List Schema) (document : String) (after : FileTree)
    (stdout : String) : Prop :=
  match name, output with
  | some name, _ =>
    ∃ file, Migration.IsFor directory ⟨name, header, schemas⟩ file ∧
      file.content = some document ∧ before.WritesOnly after file.path document ∧
      stdout = "Migration written to: " ++ file.path ++ "\n"
  | none, some path =>
    before.WritesOnly after path document ∧ stdout = "SQL written to: " ++ path ++ "\n"
  | none, none => after = before ∧ stdout = document

theorem writesOnly_of_stores {before after : FileTree} {path text : String} {place : Place}
    (hnull : '\x00' ∉ path.toList) (hplace : after.locate path = .ok place)
    (h : before.Stores after place (.text text)) : before.WritesOnly after path text := by
  refine ⟨(FileTree.find?_eq_file_iff hnull hplace).2 ?_, place, hplace, ?_⟩
  · rw [h.file?_eq, if_pos rfl]
  · intro q hq
    rw [h.file?_eq, if_neg hq]

theorem outcome_compilePreviewed (schemas : List Schema) (header : Migration.Header) :
    (compilePreviewed schemas header).outcome =
      (Migration.compileDocument header schemas).outcome := by
  have hnotes : ∀ lines : List String,
      (Traced.each (Traced.note .info) lines).outcome = .ok (lines.map fun _ => ()) := by
    intro lines
    rw [Traced.outcome_each]
    exact mapM_eq_ok_map fun line _ => rfl
  rw [compilePreviewed, Traced.outcome_bind]
  cases hcompile : (compile schemas).outcome with
  | error fault =>
    rw [Migration.compileDocument, Traced.outcome_bind, hcompile]
    rfl
  | ok statements => rw [ok_bind, Traced.outcome_bind, hnotes, ok_bind]

section CompileTo

variable {schemas : List Schema} {header : Migration.Header} {directory : String} {p : Progress}

theorem delivered_of_createMigration {name : String}
    (h : (createMigration schemas header directory name p).2 = .ok ()) (hp : p.stdout = "") :
    ∃ document, (Migration.compileDocument header schemas).outcome = .ok document ∧
      Delivered p.tree (some name) none directory header schemas document
        (createMigration schemas header directory name p).1.tree
        (createMigration schemas header directory name p).1.stdout := by
  obtain ⟨file, hfile, hrun, hprint⟩ := Action.exists_of_bind h
  rcases Migration.create_cases p.tree directory ⟨name, header, schemas⟩ with
    ⟨fault, hfault, -⟩ | ⟨made, document, place, hok, hfor, hcontent, -, hnull, hplace, hstores⟩
  · exact nomatch hfile.symm.trans hfault
  · cases hfile.symm.trans hok
    obtain ⟨time, document', htime, hdocument, hmade⟩ := id hfor
    have hsame : document' = document := by
      rw [hmade] at hcontent
      exact Option.some.inj hcontent
    refine ⟨document, ?_, file, hfor, hcontent, ?_, ?_⟩
    · rw [← hsame, ← hdocument, Migration.compileDocument_toUtc htime]
    · rw [show createMigration schemas header directory name p = _ from hrun,
        Action.print_of_ok hprint]
      exact writesOnly_of_stores hnull hplace hstores
    · rw [show createMigration schemas header directory name p = _ from hrun,
        Action.print_of_ok hprint]
      show p.stdout ++ _ ++ _ = _
      rw [hp, String.empty_append]

theorem delivered_of_emit {document : String} {output : Option String}
    (h : (emit document output p).2 = .ok ()) (hp : p.stdout = "") :
    Delivered p.tree none output directory header schemas document (emit document output p).1.tree
      (emit document output p).1.stdout := by
  cases output with
  | none =>
    rw [show emit document none p = _ from Action.write_of_ok h]
    refine ⟨rfl, ?_⟩
    show p.stdout ++ document = document
    rw [hp, String.empty_append]
  | some path =>
    obtain ⟨_, hok, hrun, hprint⟩ := Action.exists_of_bind h
    have hwritten : p.tree.write path (.text document) =
        ((p.tree.write path (.text document)).1, .ok ()) := Prod.ext rfl hok
    obtain ⟨hnull, place, hplace, hwrites⟩ := FileTree.exists_of_write hwritten
    rw [show emit document (some path) p = _ from hrun, Action.print_of_ok hprint]
    refine ⟨writesOnly_of_stores hnull hplace ⟨p.tree, .refl, hwrites⟩, ?_⟩
    show p.stdout ++ _ ++ _ = _
    rw [hp, String.empty_append]

/-- Where compiling ended well, one document was compiled, and delivered once. -/
theorem delivered_of_compileTo {name output : Option String}
    (h : (compileTo schemas header name output directory p).2 = .ok ()) (hp : p.stdout = "") :
    ∃ document, (Migration.compileDocument header schemas).outcome = .ok document ∧
      Delivered p.tree name output directory header schemas document
        (compileTo schemas header name output directory p).1.tree
        (compileTo schemas header name output directory p).1.stdout := by
  cases name with
  | some name => exact delivered_of_createMigration h hp
  | none =>
    obtain ⟨document, hdocument, hrun, hemit⟩ := Action.exists_of_bind h
    refine ⟨document, ?_, ?_⟩
    · rw [← outcome_compilePreviewed]
      exact hdocument
    · rw [show compileTo schemas header none output directory p = _ from hrun]
      exact delivered_of_emit hemit hp

end CompileTo

/-! ### Runs -/

theorem ending_ofCommand (verbosity : Nat) (p : Progress) (result : Except Fault Unit) :
    (Aftermath.ofCommand verbosity p result).ending = .ok 0 ↔ result = .ok () := by
  cases result with
  | ok => exact iff_of_true rfl rfl
  | error fault =>
    refine iff_of_false ?_ nofun
    cases fault <;> exact nofun

theorem tree_ofCommand (verbosity : Nat) (p : Progress) (result : Except Fault Unit) :
    (Aftermath.ofCommand verbosity p result).tree = p.tree := by
  cases result with
  | ok => rfl
  | error fault => cases fault <;> rfl

theorem stdout_ofCommand (verbosity : Nat) (p : Progress) (result : Except Fault Unit) :
    (Aftermath.ofCommand verbosity p result).stdout = p.stdout := by
  cases result with
  | ok => rfl
  | error fault => cases fault <;> rfl

/-- A run has printed nothing, and every file is as it was; at most, directories were made. -/
structure Untouched (before : FileTree) (after : Aftermath) : Prop where
  stdout : after.stdout = ""
  makes : before.MakesDirectories after.tree
  files : ∀ place, after.tree.file? place = before.file? place

/-- A run was broken off at a text that the standard output cannot encode.  On another standard
output it would have ended well, with the same files, and would have printed this text after those
that it has printed. -/
structure CutShort (w : World) (words : List String) (text rest : String) : Prop where
  encodes : encodable w.encodes text = false
  ending : (execute w words).ending = .error .notEncodable
  ending_unlimited : (execute w.unlimited words).ending = .ok 0
  tree : (execute w.unlimited words).tree = (execute w words).tree
  stdout : (execute w.unlimited words).stdout = (execute w words).stdout ++ text ++ rest

/-- How a run can end that does not end well. -/
theorem untouched_or_cutShort {w : World} {words : List String}
    (h : (execute w words).ending ≠ .ok 0) :
    Untouched w.tree (execute w words) ∨ ∃ text rest, CutShort w words text rest := by
  cases hwords : Invocation.ofWords words with
  | error stop =>
    left
    rw [execute, hwords] at h ⊢
    cases stop with
    | help program => exact absurd rfl h
    | usage error => exact ⟨rfl, .refl, fun _ => rfl⟩
  | ok invocation =>
    have hrun : ∀ w', execute w' words = .ofCommand invocation.verbosity
        (invocation.command.action w' w'.start).1 (invocation.command.action w' w'.start).2 := by
      intro w'
      rw [execute, hwords]
    have haction : invocation.command.action w.unlimited = invocation.command.action w := by
      cases invocation.command <;> rfl
    have hunlimited := hrun w.unlimited
    rw [haction] at hunlimited
    simp only [hrun w, ne_eq, ending_ofCommand] at h
    rcases (invocation.command.printsLast_action w).cases w.start with
      hok | ⟨fault, -, hstdout, hmakes⟩ | ⟨text, rest, hcut, hfault, hall⟩
    · exact absurd hok h
    · left
      rw [hrun w]
      refine ⟨?_, ?_, fun place => ?_⟩
      · rw [stdout_ofCommand, hstdout]
        rfl
      · rw [tree_ofCommand]
        exact hmakes
      · rw [tree_ofCommand]
        exact hmakes.file?_eq place
    · right
      rw [show w.unlimited.start = w.start.unlimited from rfl, hall] at hunlimited
      refine ⟨text, rest, hcut, ?_, ?_, ?_, ?_⟩
      · rw [hrun w, hfault]
        rfl
      · rw [hunlimited]
        rfl
      · rw [hunlimited, hrun w, tree_ofCommand, tree_ofCommand]
        rfl
      · rw [hunlimited, hrun w, stdout_ofCommand, stdout_ofCommand]

/-- **A run that fails leaves the files as they were, and a document is in one place.**  Let a run
not end with exit code 0, be it that the command line was wrong, that a fault was reported or that an
operation broke it off.  If the standard output can encode the texts that are to be printed, then the
run has printed nothing and every file is as it was; at most, directories were made.  If not, this
is so as well, unless it is just for that text that the run was broken off.

If a run of `generate` ends with exit code 0, the whole document of its schemas was delivered
once. -/
theorem execute_allOrNothing (w : World) (words : List String) :
    (encodable w.encodes (execute w.unlimited words).stdout = true →
      (execute w words).ending ≠ .ok 0 → Untouched w.tree (execute w words)) ∧
    ((execute w words).ending ≠ .ok 0 →
      Untouched w.tree (execute w words) ∨ ∃ text rest, CutShort w words text rest) ∧
    ∀ verbosity source description output name directory,
      Invocation.ofWords words =
        .ok ⟨verbosity, .generate source description output name directory⟩ →
      (execute w words).ending = .ok 0 →
      ∃ schemas document, (Source.load w.tree source).outcome = .ok schemas ∧
        (Migration.compileDocument (w.header description) schemas).outcome = .ok document ∧
        Delivered w.tree (given? name) (given? output) (w.directory directory)
          (w.header description) schemas document (execute w words).tree
          (execute w words).stdout := by
  refine ⟨fun hencodes hending => ?_, untouched_or_cutShort, ?_⟩
  · rcases untouched_or_cutShort hending with hkept | ⟨text, rest, hcut⟩
    · exact hkept
    · rw [hcut.stdout, encodable, String.toList_append, String.toList_append, List.all_append,
        List.all_append, Bool.and_eq_true, Bool.and_eq_true] at hencodes
      exact nomatch hencodes.1.2.symm.trans hcut.encodes
  · intro verbosity source description output name directory hwords hending
    rw [execute, hwords] at hending ⊢
    simp only [ending_ofCommand] at hending
    simp only [stdout_ofCommand, tree_ofCommand]
    obtain ⟨schemas, hschemas, hrun, hcompile⟩ := Action.exists_of_bind hending
    obtain ⟨document, hdocument, hdelivered⟩ := delivered_of_compileTo hcompile rfl
    refine ⟨schemas, document, hschemas, hdocument, ?_⟩
    rw [show (Command.generate source description output name directory).action w w.start = _
      from hrun]
    exact hdelivered

/-- A place without files, at half past twelve. -/
def emptyWorld : World where
  now := Migration.halfPastTwelve

/-- The same place, where the standard output knows no characters but those of ASCII. -/
def asciiWorld : World := { emptyWorld with encodes := fun c => c.toNat < 128 }

/-- There a name that is not of ASCII breaks a run off. -/
theorem ending_asciiWorld :
    (execute asciiWorld ["generate", "\x7b\x7d", "-o", "résumé.sql"]).ending =
      .error .notEncodable := by
  rfl

/-- The file of that name has been written before. -/
theorem file?_asciiWorld :
    (execute asciiWorld ["generate", "\x7b\x7d", "-o", "résumé.sql"]).tree.file?
      ⟨.working, ["résumé.sql"]⟩ ≠ none := by
  decide +kernel

/-- In a place without files a source that is not found leaves nothing, and the document of an empty
schema can be delivered to a file.  If it is the name of the file that cannot be printed, all is done
but for the last line. -/
theorem execute_emptyWorld :
    (execute emptyWorld ["generate", "missing.json"]).ending = .ok 1 ∧
    (execute emptyWorld ["generate", "missing.json"]).stdout = "" ∧
    (execute emptyWorld ["generate", "\x7b\x7d", "-o", "out.sql"]).ending = .ok 0 ∧
    (∃ schemas document, (Source.load {} (.text "\x7b\x7d")).outcome = .ok schemas ∧
      (Migration.compileDocument (emptyWorld.header none) schemas).outcome = .ok document ∧
      Delivered {} none (some "out.sql") "supabase/migrations" (emptyWorld.header none) schemas
        document
        (execute emptyWorld ["generate", "\x7b\x7d", "-o", "out.sql"]).tree
        (execute emptyWorld ["generate", "\x7b\x7d", "-o", "out.sql"]).stdout) ∧
    ∃ text rest, CutShort asciiWorld ["generate", "\x7b\x7d", "-o", "résumé.sql"] text rest := by
  have hmissing : (execute emptyWorld ["generate", "missing.json"]).ending = .ok 1 := by rfl
  have hwritten :
      (execute emptyWorld ["generate", "\x7b\x7d", "-o", "out.sql"]).ending = .ok 0 := by
    rfl
  have hwords : Invocation.ofWords ["generate", "\x7b\x7d", "-o", "out.sql"] =
      .ok ⟨0, .generate (.text "\x7b\x7d") none (some "out.sql") none none⟩ := by
    rfl
  have hfailed := (execute_allOrNothing emptyWorld ["generate", "missing.json"]).1 rfl (by
    rw [hmissing]
    decide)
  have hdelivered :=
    (execute_allOrNothing emptyWorld ["generate", "\x7b\x7d", "-o", "out.sql"]).2.2
      0 (.text "\x7b\x7d") none (some "out.sql") none none hwords hwritten
  have hstopped :=
    (execute_allOrNothing asciiWorld ["generate", "\x7b\x7d", "-o", "résumé.sql"]).2.1 (by
      rw [ending_asciiWorld]
      decide)
  refine ⟨hmissing, hfailed.stdout, hwritten, hdelivered, hstopped.resolve_left fun hkept => ?_⟩
  exact file?_asciiWorld (hkept.files _)

/-- **Not all runs are so.**  A run can be broken off when its file is written, by a standard output
that cannot encode the name of this file.  And a run that ends well writes no migration file for a
name that is empty: then the document is on the standard output. -/
theorem execute_exceptions :
    ((execute asciiWorld ["generate", "\x7b\x7d", "-o", "résumé.sql"]).ending ≠ .ok 0 ∧
      (execute asciiWorld ["generate", "\x7b\x7d", "-o", "résumé.sql"]).tree.file?
        ⟨.working, ["résumé.sql"]⟩ ≠ asciiWorld.tree.file? ⟨.working, ["résumé.sql"]⟩) ∧
    (execute emptyWorld ["generate", "\x7b\x7d", "--name", ""]).ending = .ok 0 ∧
    (execute emptyWorld ["generate", "\x7b\x7d", "--name", ""]).tree = emptyWorld.tree ∧
    (execute emptyWorld ["generate", "\x7b\x7d", "--name", ""]).stdout =
      "-- Tenjin schema migration\n-- Created: 2024-05-01T12:30:00+00:00\n" ++
        "-- Generated by: Tenjin Framework\n\n\n" := by
  refine ⟨⟨?_, file?_asciiWorld⟩, by rfl, by rfl, by decide +kernel⟩
  rw [ending_asciiWorld]
  decide

end CommandLine
end SchemaCompiler
