import SchemaCompiler.Builder.Block

/-!
# Builders

A builder collects the objects of a schema step by step.  Functions, views and custom types are
declared at once; a table or a storage bucket is declared in a block, and recorded when the block
is left.  Blocks are numbered in the order in which they are entered, and at most one is open at a
time.

* `Builder.step` — what a step does to a builder, and what it answers;
* `Builder.run` — a builder after a list of steps;
* `Builder.build` — the schema of all recorded objects.
-/

namespace SchemaCompiler

/-- Objects that are declared at once. -/
inductive Declaration where
  | function | view | customType
  deriving DecidableEq, Repr

namespace Declaration

/-- The name of a declaration. -/
def name : Declaration → String
  | .function => "function"
  | .view => "view"
  | .customType => "custom_type"

/-- All declarations. -/
def every : List Declaration := [.function, .view, .customType]

/-- The declaration with a given name. -/
def ofName? (name : String) : Option Declaration := every.find? fun d => d.name == name

/-- The arguments of a declaration. -/
def signature : Declaration → Signature
  | .function =>
    { parameters := [("name", none), ("args", none), ("return_type", none), ("body", none)]
      takesOptions := true }
  | .view => { parameters := [("name", none), ("query", none)], takesOptions := true }
  | .customType => { parameters := [("name", none), ("kind", none)], takesOptions := true }

/-- The options of a custom type, which are the data of its kinds. -/
def typeOptions : List String := ["values", "fields", "base_type", "constraint"]

/-- Refuse options that a custom type does not have, and name the first of them in order. -/
def checkTypeOptions (type : Value) (options : List (String × Value)) : Except Fault Unit :=
  let unknown := (options.map Prod.fst).filter fun key => !typeOptions.contains key
  match (unknown.mergeSort fun a b => decide (a ≤ b)).head? with
  | some key => .error (.schema (.unknownOption (phrase "custom type" type) key))
  | none => .ok ()

/-- Record a declared object in a schema. -/
def declare (s : Schema) : Declaration → Arguments → Except Fault Schema
  | .function, ⟨[name, args, returnType, body], options⟩ => do
    let args ← args.items
    let options ← OptionSet.ofValue FunctionOptions (namedOptions options)
      (phrase "function" name)
    return { s with functions := s.functions ++ [{ name, args, returnType, body, options }] }
  | .view, ⟨[name, query], options⟩ => do
    let options ← OptionSet.ofValue ViewOptions (namedOptions options) (phrase "view" name)
    return { s with views := s.views ++ [{ name, query, options }] }
  | .customType, ⟨[name, kind], options⟩ => do
    checkTypeOptions name options
    let option (key : String) := (options.lookup key).getD .null
    let type ← CustomType.make name kind (option "values") (option "fields") (option "base_type")
      (option "constraint")
    return { s with customTypes := s.customTypes ++ [type] }
  | _, _ => .error (.misuse .wrongType)

end Declaration

/-- A builder: the blocks that have been entered, the number of the open one, and the objects that
have been recorded. -/
structure Builder where
  blocks : List Block := []
  current : Option Nat := none
  recorded : Schema := {}

/-- A step of a builder.  A step in a block names its number; otherwise it is about the block
entered last. -/
inductive Step where
  | enter (kind : BlockKind) (call : Call)
  /-- Leave a block and record its table or bucket. -/
  | leave (block : Option Nat)
  /-- Leave a block and forget what was declared in it. -/
  | abandon (block : Option Nat)
  | perform (operation : Operation) (call : Call) (block : Option Nat)
  | declare (declaration : Declaration) (call : Call)
  | build

namespace Builder

/-- The block that is open. -/
def openBlock? (b : Builder) : Option Block := b.current.bind (b.blocks[·]?)

/-- The number of the block that a step is about. -/
def target (b : Builder) (block : Option Nat) : Nat := block.getD (b.blocks.length - 1)

/-- The schema of all recorded objects. -/
def build (b : Builder) : Except Fault Schema :=
  match b.openBlock? with
  | some block => .error (.schema (.blockOpen block.draft.kind.label block.draft.name.toText))
  | none => b.recorded.checked

/-- Enter a block. -/
def enter (b : Builder) (kind : BlockKind) (call : Call) : Except Fault Builder := do
  let args ← kind.signature.bind call
  let name := args.values.headD .null
  let draft ← Draft.start kind name args.options
  match b.openBlock? with
  | some outer => .error (.schema (.blockNested kind.label name.toText outer.draft.kind.label
      outer.draft.name.toText))
  | none => return { b with blocks := b.blocks ++ [{ draft }], current := some b.blocks.length }

/-- Close a block. -/
def close (b : Builder) (number : Nat) : Builder :=
  { b with blocks := b.blocks.modify number fun block => { block with isOpen := false }
           current := none }

/-- Record what was declared in a block. -/
def record (b : Builder) : Draft → Except Fault Builder
  | .table t => do
    let t ← t.checked
    return { b with recorded := { b.recorded with tables := b.recorded.tables ++ [t] } }
  | .storageBucket s =>
    .ok { b with recorded := { b.recorded with storageBuckets :=
      b.recorded.storageBuckets ++ [s] } }

/-- Leave a block, which closes it, and record its draft if `keep`.  A block that is closed
already stays as it is. -/
def leave (b : Builder) (number : Nat) (keep : Bool) : Builder × Except Fault Unit :=
  match b.blocks[number]? with
  | some ⟨draft, true⟩ =>
    let closed := b.close number
    if keep then
      match closed.record draft with
      | .ok recorded => (recorded, .ok ())
      | .error fault => (closed, .error fault)
    else (closed, .ok ())
  | _ => (b, .ok ())

/-- An operation on a block. -/
def perform (b : Builder) (operation : Operation) (call : Call) (number : Nat) :
    Except Fault Builder := do
  match b.blocks[number]? with
  | none => .error (.misuse .noSuchPart)
  | some block =>
    let block ← block.perform operation call
    return { b with blocks := b.blocks.set number block }

/-- A declaration. -/
def declare (b : Builder) (declaration : Declaration) (call : Call) : Except Fault Builder := do
  let args ← declaration.signature.bind call
  return { b with recorded := ← declaration.declare b.recorded args }

/-- The builder after a change, if it went well; after a fault it is as it was. -/
def changed (b : Builder) : Except Fault Builder → Builder × Except Fault (Option Schema)
  | .ok next => (next, .ok none)
  | .error fault => (b, .error fault)

/-- What a step does to a builder and what it answers: a schema if it was to build one. -/
def step (b : Builder) : Step → Builder × Except Fault (Option Schema)
  | .enter kind call => b.changed (b.enter kind call)
  | .leave block => (b.leave (b.target block) true).map id fun end_ => end_.map fun _ => none
  | .abandon block => (b.leave (b.target block) false).map id fun end_ => end_.map fun _ => none
  | .perform operation call block => b.changed (b.perform operation call (b.target block))
  | .declare declaration call => b.changed (b.declare declaration call)
  | .build => (b, b.build.map some)

/-- A builder after a list of steps, each taken whatever the ones before it answered. -/
def run (b : Builder) (steps : List Step) : Builder := steps.foldl (fun b s => (b.step s).1) b

end Builder
end SchemaCompiler
