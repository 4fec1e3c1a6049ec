import SchemaCompiler.Schema.Basic
import SchemaCompiler.Value.Parameter

/-!
# Blocks

A table or a storage bucket is declared in a block: as long as the block is open, each operation
adds to its draft.  An operation on a block goes through three checks before it changes anything:
blocks of the kind have to have the operation, the arguments have to fit, and the block has to be
open.

* `Draft.perform` — what an operation adds to a draft;
* `Block.perform` — the same, behind the checks.
-/

namespace SchemaCompiler

/-- What is declared in blocks. -/
inductive BlockKind where
  | table | storageBucket
  deriving DecidableEq, Repr

namespace BlockKind

/-- The word for a kind of block. -/
def label : BlockKind → String
  | .table => "table"
  | .storageBucket => "storage_bucket"

/-- All kinds of blocks. -/
def every : List BlockKind := [.table, .storageBucket]

/-- The kind with a given label. -/
def ofLabel? (label : String) : Option BlockKind := every.find? fun kind => kind.label == label

/-- The arguments that open a block: a name and options. -/
def signature (_ : BlockKind) : Signature :=
  { parameters := [("name", none)], takesOptions := true }

end BlockKind

/-- What can be done in a block. -/
inductive Operation where
  | field | enableRls | policy | index | trigger
  | relationship (kind : RelationshipKind)
  | setPublic | fileSizeLimit | allowedMimeTypes
  deriving DecidableEq, Repr

namespace Operation

/-- The name of an operation. -/
def name : Operation → String
  | .field => "field"
  | .enableRls => "enable_rls"
  | .policy => "policy"
  | .index => "index"
  | .trigger => "trigger"
  | .relationship kind => Vocabulary.label kind
  | .setPublic => "public"
  | .fileSizeLimit => "file_size_limit"
  | .allowedMimeTypes => "allowed_mime_types"

/-- All operations. -/
def every : List Operation :=
  [.field, .enableRls, .policy, .index, .trigger, .setPublic, .fileSizeLimit, .allowedMimeTypes] ++
    (Vocabulary.members (α := RelationshipKind)).map .relationship

/-- The operation with a given name. -/
def ofName? (name : String) : Option Operation := every.find? fun op => op.name == name

/-- Whether blocks of a kind have the operation. -/
def isFor (kind : BlockKind) : Operation → Bool
  | .policy => true
  | .setPublic | .fileSizeLimit | .allowedMimeTypes => kind = .storageBucket
  | _ => kind = .table

/-- The arguments of an operation. -/
def signature : Operation → Signature
  | .field => { parameters := [("name", none), ("type", none)], takesOptions := true }
  | .enableRls => {}
  | .policy =>
    { parameters := [("action", none), ("description", none), ("condition", none)]
      takesOptions := true }
  | .index => { parameters := [("fields", none)], takesOptions := true }
  | .trigger =>
    { parameters := [("name", none), ("events", none), ("body", none)], takesOptions := true }
  | .relationship _ => { parameters := [("name", none)], takesOptions := true }
  | .setPublic => { parameters := [("value", some (.bool true))] }
  | .fileSizeLimit => { parameters := [("limit", none)] }
  | .allowedMimeTypes => { parameters := [("types", none)] }

end Operation

/-- Options given by name, as a mapping. -/
def namedOptions (options : List (String × Value)) : Value :=
  .mapping (options.map fun o => (.text o.1, o.2))

/-- What has been declared in a block so far. -/
inductive Draft where
  | table (draft : Table)
  | storageBucket (draft : StorageBucket)

namespace Draft

/-- What a draft will become. -/
def kind : Draft → BlockKind
  | .table _ => .table
  | .storageBucket _ => .storageBucket

/-- The name of the table or bucket. -/
def name : Draft → Value
  | .table t => t.name
  | .storageBucket b => b.name

/-- The empty draft of a table or bucket. -/
def start (kind : BlockKind) (name : Value) (options : List (String × Value)) :
    Except Fault Draft := do
  match kind with
  | .table =>
    let options ← OptionSet.ofValue TableOptions (namedOptions options) (phrase "table" name)
    return .table { name, options }
  | .storageBucket =>
    let options ← OptionSet.ofValue BucketOptions (namedOptions options) (phrase "bucket" name)
    return .storageBucket { name, options }

/-- A policy as an operation declares it. -/
def declaredPolicy (action description condition : Value) (options : List (String × Value)) :
    Except Fault Policy := do
  let options ← OptionSet.ofValue PolicyOptions (namedOptions options)
    (phrase "policy" description)
  Policy.make action description condition options

/-- What an operation adds to the draft of a table. -/
def performOnTable (t : Table) : Operation → Arguments → Except Fault Table
  | .field, ⟨[name, type], options⟩ => do
    let options ← OptionSet.ofValue FieldOptions (namedOptions options) (phrase "field" name)
    return { t with fields := t.fields ++ [{ name, type, options }] }
  | .enableRls, _ => .ok { t with rlsEnabled := true }
  | .policy, ⟨[action, description, condition], options⟩ => do
    let policy ← declaredPolicy action description condition options
    return { t with policies := t.policies ++ [policy] }
  | .index, ⟨[columns], options⟩ => do
    let fields ← columns.items
    let options ← OptionSet.ofValue IndexOptions (namedOptions options)
      ("index on " ++ columns.toText)
    return { t with indexes := t.indexes ++ [← Index.make (.list fields) options] }
  | .trigger, ⟨[name, events, body], options⟩ => do
    let events ← events.items
    let options ← OptionSet.ofValue TriggerOptions (namedOptions options) (phrase "trigger" name)
    return { t with triggers := t.triggers ++ [← Trigger.make name events body options] }
  | .relationship kind, ⟨[name], options⟩ =>
    let options := options.map fun o => (.text o.1, o.2)
    .ok { t with relationships := t.relationships ++ [{ kind := some kind, name, options }] }
  | _, _ => .error (.misuse .wrongType)

/-- What an operation adds to the draft of a storage bucket. -/
def performOnBucket (b : StorageBucket) : Operation → Arguments → Except Fault StorageBucket
  | .policy, ⟨[action, description, condition], options⟩ => do
    let policy ← declaredPolicy action description condition options
    return { b with policies := b.policies ++ [policy] }
  | .setPublic, ⟨[value], _⟩ => .ok { b with options := { b.options with isPublic := value } }
  | .fileSizeLimit, ⟨[limit], _⟩ =>
    .ok { b with options := { b.options with fileSizeLimit := limit } }
  | .allowedMimeTypes, ⟨[types], _⟩ => do
    let types ← types.items
    return { b with options := { b.options with mimeTypes := .list types } }
  | _, _ => .error (.misuse .wrongType)

/-- What an operation adds to a draft. -/
def perform (operation : Operation) (args : Arguments) : Draft → Except Fault Draft
  | .table t => (performOnTable t operation args).map .table
  | .storageBucket b => (performOnBucket b operation args).map .storageBucket

end Draft

/-- A block with its draft. -/
structure Block where
  draft : Draft
  isOpen : Bool := true

/-- An operation on a block. -/
def Block.perform (b : Block) (operation : Operation) (call : Call) : Except Fault Block := do
  if !operation.isFor b.draft.kind then .error (.misuse .noSuchPart)
  else
    let args ← operation.signature.bind call
    if b.isOpen then return { b with draft := ← b.draft.perform operation args }
    else .error (.schema (.blockClosed operation.name b.draft.kind.label))

end SchemaCompiler
