import SchemaCompiler.Schema.Basic
import SchemaCompiler.Value.Parameter

/-!
# Objects from named arguments

Any object or set of options can be built directly from named arguments, without a definition.
`construct` checks just what has to hold for an object of the kind: an argument that is not checked
is kept as it is, a mapping given as options is read as the options of the object, and words from a
vocabulary are replaced by its members.  The result is the record of the object.

Arguments are data.  In two places an iterator is used up and turned into data: where it gives the
fields of an index (`Construct.indexOver`) or the columns of a composite type
(`Construct.compositeOf`).
-/

namespace SchemaCompiler

namespace Construct

/-- The parameter for the options of an object. -/
def optionsParameter {α : Type} [OptionSet α] (usual : α) : Parameter :=
  ("options", some (OptionSet.toValue usual))

/-- The parameter for a list of objects. -/
def listParameter (name : String) : Parameter := (name, some (.list []))

/-- The parameters of a kind of object: their names, and what stands for a missing one if it may
be missing.  Sets of options have no parameters but their options. -/
def parameters : RecordKind → List Parameter
  | .field => [("name", none), ("type", none), optionsParameter ({} : FieldOptions)]
  | .index => [("fields", none), optionsParameter ({} : IndexOptions)]
  | .policy => [("action", none), ("description", none), ("condition", none),
      optionsParameter ({} : PolicyOptions)]
  | .trigger => [("name", none), ("events", none), ("body", none),
      optionsParameter ({} : TriggerOptions)]
  | .relationship => [("kind", none), ("name", none), ("options", some (.mapping []))]
  | .table => [("name", none), listParameter "fields", listParameter "indexes",
      listParameter "policies", listParameter "triggers", listParameter "relationships",
      ("rls_enabled", some (.bool false)), optionsParameter ({} : TableOptions)]
  | .function => [("name", none), ("args", none), ("return_type", none), ("body", none),
      optionsParameter ({} : FunctionOptions)]
  | .view => [("name", none), ("query", none), optionsParameter ({} : ViewOptions)]
  | .customType => [("name", none), ("kind", none), ("values", some .null),
      ("fields", some .null), ("base_type", some .null), ("constraint", some .null)]
  | .storageBucket => [("name", none), listParameter "policies",
      optionsParameter ({} : BucketOptions)]
  | .schema => [listParameter "tables", listParameter "functions", listParameter "views",
      listParameter "storage_buckets", listParameter "custom_types"]
  | _ => []

/-- The arguments for all parameters; every argument has to belong to one. -/
def bind (parameters : List Parameter) (args : List (String × Value)) :
    Except Fault (List (String × Value)) :=
  if args.any fun a => !Parameter.named a.1 parameters then .error (.misuse .wrongType)
  else Parameter.fill args parameters

/-- The argument for a parameter. -/
def argument (bound : List (String × Value)) (name : String) : Value :=
  (bound.lookup name).getD .null

/-- The record with the argument for `name` replaced. -/
def replaced (bound : List (String × Value)) (name : String) (value : Value) :
    List (String × Value) :=
  bound.map fun (n, v) => if n = name then (n, value) else (n, v)

/-- The options of an object: read from a mapping, otherwise kept. -/
def ownOptions (α : Type) [OptionSet α] (owner : String) (bound : List (String × Value)) :
    Except Fault (List (String × Value)) :=
  match argument bound "options" with
  | .mapping es => do
    let options ← OptionSet.ofValue α (.mapping es) owner
    return replaced bound "options" (OptionSet.toValue options)
  | _ => .ok bound

/-- The name of an object in a list of objects. -/
def nameOf : Value → Except Fault Value
  | .record _ attributes =>
    match attributes.lookup "name" with
    | some name => .ok name
    | none => .error (.misuse .noSuchPart)
  | .member m => .ok (.text (Text.upper m.label))
  | _ => .error (.misuse .noSuchPart)

/-- A set of options from those that are given. -/
def optionSet (α : Type) [OptionSet α] (args : List (String × Value)) : Except Fault Value := do
  if args.any fun a => !(OptionSet.names α).contains a.1 then .error (.misuse .wrongType)
  else return OptionSet.toValue (← OptionSet.ofSettings (α := α) (args.lookup ·))

/-- Complete the arguments for an index over some fields. -/
def overFields (fields : List String) (bound : List (String × Value)) :
    Except Fault (List (String × Value)) :=
  let fields := Value.list (fields.map .text)
  ownOptions IndexOptions ("index on " ++ fields.toText) (replaced bound "fields" fields)

/-- Complete the arguments for a type of a kind with some columns. -/
def ofKind (kind : Option TypeKind) (fields : Value) (bound : List (String × Value)) :
    List (String × Value) :=
  replaced (replaced bound "kind" (Vocabulary.toValue kind)) "fields" fields

/-- Check and complete the arguments for an object. -/
def finish (kind : RecordKind) (bound : List (String × Value)) :
    Except Fault (List (String × Value)) := do
  let arg := argument bound
  match kind with
  | .field => ownOptions FieldOptions (phrase "field" (arg "name")) bound
  | .index =>
    let index ← Index.make (arg "fields") {}
    overFields index.fields bound
  | .policy =>
    let policy ← Policy.make (arg "action") (arg "description") (arg "condition") {}
    ownOptions PolicyOptions (phrase "policy" (arg "description"))
      (replaced bound "action" (.member (.policyAction policy.action)))
  | .trigger =>
    if (arg "events").isTrue then
      ownOptions TriggerOptions (phrase "trigger" (arg "name")) bound
    else .error (.schema (.triggerWithoutEvents (arg "name").toText))
  | .relationship =>
    let relationship ← Relationship.make (arg "kind") (arg "name") []
    return replaced bound "kind" (Vocabulary.toValue relationship.kind)
  | .table =>
    let bound ← ownOptions TableOptions (phrase "table" (arg "name")) bound
    Table.checkFields (arg "name") ((← (arg "fields").items).map nameOf)
    return bound
  | .function => ownOptions FunctionOptions (phrase "function" (arg "name")) bound
  | .view => ownOptions ViewOptions (phrase "view" (arg "name")) bound
  | .customType =>
    let type ← CustomType.make (arg "name") (arg "kind") (arg "values") (arg "fields")
      (arg "base_type") (arg "constraint")
    return ofKind type.kind type.fields bound
  | .storageBucket => ownOptions BucketOptions (phrase "bucket" (arg "name")) bound
  | .schema =>
    Schema.checkTables ((← (arg "tables").items).map nameOf)
    return bound
  | _ => return bound

/-- Build an index from an iterator over its fields and from the other arguments.  An iterator counts
as given, and what it gives is known only when it has been used up, after the check. -/
def indexOver (items : List Value) (args : List (String × Value)) : Except Fault Value := do
  let bound ← bind (parameters .index) (("fields", .list items) :: args)
  return .record .index (← overFields (items.map Value.toText) bound)

/-- Build a composite type from an iterator over its columns and from the other arguments. -/
def compositeOf (items : List Value) (args : List (String × Value)) : Except Fault Value := do
  let kind : Value := .member (.typeKind .composite)
  let bound ← bind (parameters .customType) (("kind", kind) :: ("fields", .list items) :: args)
  let columns ← CustomType.columns (.list items)
  return .record .customType (ofKind (some .composite) (.list columns) bound)

end Construct

/-- Build an object or a set of options from named arguments. -/
def construct (kind : RecordKind) (args : List (String × Value)) : Except Fault Value :=
  match kind with
  | .fieldOptions => Construct.optionSet FieldOptions args
  | .indexOptions => Construct.optionSet IndexOptions args
  | .policyOptions => Construct.optionSet PolicyOptions args
  | .triggerOptions => Construct.optionSet TriggerOptions args
  | .tableOptions => Construct.optionSet TableOptions args
  | .functionOptions => Construct.optionSet FunctionOptions args
  | .viewOptions => Construct.optionSet ViewOptions args
  | .bucketOptions => Construct.optionSet BucketOptions args
  | kind => do
    let bound ← Construct.bind (Construct.parameters kind) args
    return .record kind (← Construct.finish kind bound)

end SchemaCompiler
