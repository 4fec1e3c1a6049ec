import SchemaCompiler.FileTree.Write
import SchemaCompiler.Trace

/-!
# Actions

A command is carried out step by step: it looks at the files, computes, changes files and prints.
An `Action` is such a step or a sequence of them.  It ends with a result or a fault, and what was
logged, changed or printed before a fault stays so.

* `Action.reading` — a computation on the files as they are;
* `Action.changing` — an operation that may change files, also if it fails;
* `Action.write`, `Action.print` — a text or a line for the standard output, which may not be able to
  encode it.
-/

namespace SchemaCompiler.CommandLine

/-- How far a command has come: the files, the log and what was printed, on a standard output that
encodes some characters and perhaps not others. -/
structure Progress where
  tree : FileTree
  log : List LogEntry := []
  stdout : String := ""
  encodes : Char → Bool := fun _ => true

/-- Whether every character of a text can be encoded. -/
def encodable (encodes : Char → Bool) (text : String) : Bool := text.toList.all encodes

/-- A step of a command. -/
def Action (α : Type) : Type := Progress → Progress × Except Fault α

namespace Action

variable {α β : Type}

/-- A result, and nothing is done. -/
def pure (a : α) : Action α := fun p => (p, .ok a)

/-- One step after another; after a fault nothing is done. -/
def bind (x : Action α) (f : α → Action β) : Action β := fun p =>
  match x p with
  | (p, .ok a) => f a p
  | (p, .error fault) => (p, .error fault)

instance : Monad Action where
  pure := Action.pure
  bind := Action.bind

/-- A computation, which does nothing but log. -/
def traced (x : Traced α) : Action α := fun p => ({ p with log := p.log ++ x.log }, x.outcome)

/-- A computation on the files as they are. -/
def reading (f : FileTree → Traced α) : Action α := fun p => traced (f p.tree) p

/-- An operation that may change files, also if it fails. -/
def changing (f : FileTree → FileTree × Traced α) : Action α := fun p =>
  traced (f p.tree).2 { p with tree := (f p.tree).1 }

/-- Write a text to the standard output.  Of a text that cannot be encoded nothing is written. -/
def write (text : String) : Action Unit := fun p =>
  if encodable p.encodes text then ({ p with stdout := p.stdout ++ text }, .ok ())
  else (p, .error (.misuse .notEncodable))

/-- Write a line to the standard output, and then its end. -/
def print (line : String) : Action Unit := bind (write line) fun () => write "\n"

/-- One step per item, in order. -/
def each (f : α → Action Unit) : List α → Action Unit
  | [] => pure ()
  | a :: as => bind (f a) fun () => each f as

end Action
end SchemaCompiler.CommandLine
