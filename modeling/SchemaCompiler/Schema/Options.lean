import SchemaCompiler.Value.Reading

/-!
# Options

Every kind of object has a set of options, all of them optional.  An `OptionSet` names its options
and builds the set from those that are given; `OptionSet.ofValue` reads it from a mapping, and
refuses a key that names no option.  Options that choose from a vocabulary are read without regard
to case (`Vocabulary.read`); all others take any value.
-/

namespace SchemaCompiler

/-- The member of a vocabulary that a value names; nothing for an absent value. -/
def Vocabulary.read (α : Type) [Vocabulary α] (value : Value) (what : String) :
    Except Fault (Option α) :=
  let search : Except Fault (Option α) :=
    match Vocabulary.ofLabel? α (Text.lower value.toText) with
    | some m => .ok (some m)
    | none => .error (.schema (.notInVocabulary what value.toText
        ((Vocabulary.members (α := α)).map Vocabulary.label)))
  match value with
  | .null => .ok none
  | .member m =>
    match Vocabulary.ofMember? (α := α) m with
    | some m => .ok (some m)
    | none => search
  | _ => search

/-- The value of an optional member of a vocabulary. -/
def Vocabulary.toValue {α : Type} [Vocabulary α] : Option α → Value
  | some m => .member (Vocabulary.toMember m)
  | none => .null

/-- A set of options. -/
class OptionSet (α : Type) where
  /-- The kind of record that shows the set. -/
  kind : RecordKind
  /-- The names of the options. -/
  names : List String
  /-- The set with the given options, all others having their usual value. -/
  ofSettings : (String → Option Value) → Except Fault α
  /-- The options by name. -/
  attributes : α → List (String × Value)

namespace OptionSet

/-- The record that shows a set of options. -/
def toValue {α : Type} [OptionSet α] (options : α) : Value :=
  .record (kind α) (attributes options)

/-- The name of the option that a key stands for: `for` is a short form. -/
def nameOfKey (key : String) : String := if key = "for" then "for_" else key

/-- The options that a mapping gives, in the order of its entries. -/
def settings (names : List String) (owner : String) :
    List (Value × Value) → Except Fault (List (String × Value))
  | [] => .ok []
  | (key, value) :: es =>
    let unknown : Fault := .schema (.unknownOption owner key.toText)
    match key with
    | .text k =>
      if names.contains (nameOfKey k) then
        (settings names owner es).map ((nameOfKey k, value) :: ·)
      else .error unknown
    | _ => .error unknown

/-- The last of the values given under a name. -/
def lastOf (given : List (String × Value)) (name : String) : Option Value :=
  given.reverse.lookup name

/-- Read a set of options from a value: nothing, such a set, or a mapping. -/
def ofValue (α : Type) [OptionSet α] (value : Value) (owner : String) : Except Fault α :=
  let refuse : Except Fault α :=
    .error (.schema (.optionsNotMapping owner value.typeName))
  match value with
  | .null => ofSettings fun _ => none
  | .record k attributes => if k = kind α then ofSettings (attributes.lookup ·) else refuse
  | .mapping es => do
    let given ← settings (names α) owner es
    ofSettings (lastOf given)
  | _ => refuse

end OptionSet

/-- Options of a field.  A field may be null unless `null` is false. -/
structure FieldOptions where
  null : Value := .bool true
  default : Value := .null
  primaryKey : Value := .bool false
  unique : Value := .bool false
  references : Value := .null
  onDelete : Option ReferentialAction := none
  onUpdate : Option ReferentialAction := none
  generated : Value := .null
  comment : Value := .null

instance : OptionSet FieldOptions where
  kind := .fieldOptions
  names := ["null", "default", "primary_key", "unique", "references", "on_delete", "on_update",
    "generated", "comment"]
  ofSettings given := do
    let onDelete ← Vocabulary.read ReferentialAction ((given "on_delete").getD .null)
      "on_delete action"
    let onUpdate ← Vocabulary.read ReferentialAction ((given "on_update").getD .null)
      "on_update action"
    return {
      null := (given "null").getD (.bool true)
      default := (given "default").getD .null
      primaryKey := (given "primary_key").getD (.bool false)
      unique := (given "unique").getD (.bool false)
      references := (given "references").getD .null
      onDelete, onUpdate
      generated := (given "generated").getD .null
      comment := (given "comment").getD .null }
  attributes o := [("null", o.null), ("default", o.default), ("primary_key", o.primaryKey),
    ("unique", o.unique), ("references", o.references),
    ("on_delete", Vocabulary.toValue o.onDelete), ("on_update", Vocabulary.toValue o.onUpdate),
    ("generated", o.generated), ("comment", o.comment)]

/-- Options of an index. -/
structure IndexOptions where
  name : Value := .null
  unique : Value := .bool false
  method : Value := .null
  condition : Value := .null
  comment : Value := .null

instance : OptionSet IndexOptions where
  kind := .indexOptions
  names := ["name", "unique", "using", "where", "comment"]
  ofSettings given := .ok {
    name := (given "name").getD .null
    unique := (given "unique").getD (.bool false)
    method := (given "using").getD .null
    condition := (given "where").getD .null
    comment := (given "comment").getD .null }
  attributes o := [("name", o.name), ("unique", o.unique), ("using", o.method),
    ("where", o.condition), ("comment", o.comment)]

/-- Options of a policy: its name, the roles it is for, and a condition of its own for the new
state of updated rows. -/
structure PolicyOptions where
  name : Value := .null
  roles : Value := .null
  withCheck : Value := .null

instance : OptionSet PolicyOptions where
  kind := .policyOptions
  names := ["name", "for_", "with_check"]
  ofSettings given := .ok {
    name := (given "name").getD .null
    roles := (given "for_").getD .null
    withCheck := (given "with_check").getD .null }
  attributes o := [("name", o.name), ("for_", o.roles), ("with_check", o.withCheck)]

/-- Options of a trigger. -/
structure TriggerOptions where
  timing : TriggerTiming := .before
  scope : TriggerScope := .row
  condition : Value := .null

instance : OptionSet TriggerOptions where
  kind := .triggerOptions
  names := ["timing", "for_each", "when"]
  ofSettings given := do
    let timing ← Vocabulary.read TriggerTiming ((given "timing").getD .null) "trigger timing"
    let scope ← Vocabulary.read TriggerScope ((given "for_each").getD .null) "trigger scope"
    return {
      timing := timing.getD .before
      scope := scope.getD .row
      condition := (given "when").getD .null }
  attributes o := [("timing", .member (.triggerTiming o.timing)),
    ("for_each", .member (.triggerScope o.scope)), ("when", o.condition)]

/-- Options of a table. -/
structure TableOptions where
  comment : Value := .null

instance : OptionSet TableOptions where
  kind := .tableOptions
  names := ["comment"]
  ofSettings given := .ok { comment := (given "comment").getD .null }
  attributes o := [("comment", o.comment)]

/-- Options of a function. -/
structure FunctionOptions where
  language : Value := .text "plpgsql"
  volatility : Option Volatility := none
  security : Option SecurityMode := none

instance : OptionSet FunctionOptions where
  kind := .functionOptions
  names := ["language", "volatility", "security"]
  ofSettings given := do
    let volatility ← Vocabulary.read Volatility ((given "volatility").getD .null)
      "function volatility"
    let security ← Vocabulary.read SecurityMode ((given "security").getD .null)
      "function security"
    return { language := (given "language").getD (.text "plpgsql"), volatility, security }
  attributes o := [("language", o.language), ("volatility", Vocabulary.toValue o.volatility),
    ("security", Vocabulary.toValue o.security)]

/-- Options of a view. -/
structure ViewOptions where
  materialized : Value := .bool false
  comment : Value := .null

instance : OptionSet ViewOptions where
  kind := .viewOptions
  names := ["materialized", "comment"]
  ofSettings given := .ok {
    materialized := (given "materialized").getD (.bool false)
    comment := (given "comment").getD .null }
  attributes o := [("materialized", o.materialized), ("comment", o.comment)]

/-- Options of a storage bucket: whether everyone may read it, the largest file it takes, and the
content types it takes. -/
structure BucketOptions where
  isPublic : Value := .bool false
  fileSizeLimit : Value := .null
  mimeTypes : Value := .null

instance : OptionSet BucketOptions where
  kind := .bucketOptions
  names := ["public", "file_size_limit", "allowed_mime_types"]
  ofSettings given := .ok {
    isPublic := (given "public").getD (.bool false)
    fileSizeLimit := (given "file_size_limit").getD .null
    mimeTypes := (given "allowed_mime_types").getD .null }
  attributes o := [("public", o.isPublic), ("file_size_limit", o.fileSizeLimit),
    ("allowed_mime_types", o.mimeTypes)]

end SchemaCompiler
