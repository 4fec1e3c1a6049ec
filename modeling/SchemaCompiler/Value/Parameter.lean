import SchemaCompiler.Fault
import SchemaCompiler.Value.Basic

/-!
# Parameters

What an operation asks for, and how the arguments of a call are distributed over it.  An argument
is given by position or by name; each parameter takes one argument, and a parameter with a stand-in
does without.

* `fill` — arguments that are all given by name;
* `Signature.bind` — arguments of both sorts; options are taken by an operation that has any.
-/

namespace SchemaCompiler

/-- A parameter: its name, and what stands for its argument if it may be missing. -/
abbrev Parameter := String × Option Value

namespace Parameter

/-- The arguments for all parameters, in their order; every parameter without a stand-in needs
one. -/
def fill (given : List (String × Value)) : List Parameter → Except Fault (List (String × Value))
  | [] => .ok []
  | (name, standIn) :: parameters => do
    match given.lookup name <|> standIn with
    | some value => return (name, value) :: (← fill given parameters)
    | none => .error (.misuse .wrongType)

/-- Whether one of the parameters has a name. -/
def named (name : String) (parameters : List Parameter) : Bool :=
  parameters.any fun p => p.1 == name

end Parameter

/-- The arguments of a call. -/
structure Call where
  positional : List Value := []
  named : List (String × Value) := []

/-- What an operation asks for. -/
structure Signature where
  parameters : List Parameter := []
  takesOptions : Bool := false

/-- The arguments of a call, distributed: a value for each parameter, and the options. -/
structure Arguments where
  values : List Value
  options : List (String × Value)

namespace Signature

/-- The name under which no argument can be given, because it stands for the object that the
operation belongs to. -/
def reservedName : String := "self"

/-- Distribute the arguments of a call.  No parameter may get two arguments, and only an operation
with options takes arguments that belong to no parameter. -/
def bind (s : Signature) (call : Call) : Except Fault Arguments := do
  let count := call.positional.length
  let taken := s.parameters.take count
  let options := call.named.filter fun a => !Parameter.named a.1 s.parameters
  if s.parameters.length < count then .error (.misuse .wrongType)
  else if call.named.any fun a => a.1 == reservedName || Parameter.named a.1 taken then
    .error (.misuse .wrongType)
  else
    let rest ← Parameter.fill call.named (s.parameters.drop count)
    if options.isEmpty || s.takesOptions then
      return { values := call.positional ++ rest.map Prod.snd, options }
    else .error (.misuse .wrongType)

end Signature
end SchemaCompiler
