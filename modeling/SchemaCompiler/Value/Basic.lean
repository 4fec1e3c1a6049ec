import SchemaCompiler.Number.Decimal
import SchemaCompiler.Number.Shortest
import SchemaCompiler.Schema.Vocabulary
import SchemaCompiler.Text.Line
import SchemaCompiler.Text.Quoted

/-!
# Values

What a definition is made of.  A definition may come from anywhere, so nothing is known about the
value of a setting until it is read: a name may be a number, a list of fields a text.  Mappings
keep the order in which their entries were written.

* `Value.isTrue` — whether a value counts as given: not empty, not zero, not null;
* `Value.text` — the text of a value where SQL or a message shows it;
* `Value.quoted` — its text inside a list, a tuple or a mapping.
-/

namespace SchemaCompiler

open Number

/-- The kinds of objects that definitions describe, and of the option sets that belong to them. -/
inductive RecordKind where
  | fieldOptions | indexOptions | policyOptions | triggerOptions | tableOptions
  | functionOptions | viewOptions | bucketOptions
  | field | index | policy | trigger | relationship | table
  | function | view | customType | storageBucket | schema
  deriving DecidableEq, Repr

namespace RecordKind

/-- The name of a kind. -/
def name : RecordKind → String
  | .fieldOptions => "FieldOptions"
  | .indexOptions => "IndexOptions"
  | .policyOptions => "PolicyOptions"
  | .triggerOptions => "TriggerOptions"
  | .tableOptions => "TableOptions"
  | .functionOptions => "FunctionOptions"
  | .viewOptions => "ViewOptions"
  | .bucketOptions => "BucketOptions"
  | .field => "Field"
  | .index => "Index"
  | .policy => "Policy"
  | .trigger => "Trigger"
  | .relationship => "Relationship"
  | .table => "Table"
  | .function => "Function"
  | .view => "View"
  | .customType => "CustomType"
  | .storageBucket => "StorageBucket"
  | .schema => "Schema"

/-- All kinds. -/
def every : List RecordKind :=
  [.fieldOptions, .indexOptions, .policyOptions, .triggerOptions, .tableOptions,
    .functionOptions, .viewOptions, .bucketOptions, .field, .index, .policy, .trigger,
    .relationship, .table, .function, .view, .customType, .storageBucket, .schema]

/-- The kind with a given name. -/
def ofName? (name : String) : Option RecordKind := every.find? fun kind => kind.name == name

end RecordKind

/-- The value of a setting. -/
inductive Value where
  | null
  | bool (b : Bool)
  | int (n : Int)
  | float (x : Binary64)
  | decimal (d : Decimal)
  | text (s : String)
  | list (items : List Value)
  | tuple (items : List Value)
  | mapping (entries : List (Value × Value))
  | member (m : Member)
  | record (kind : RecordKind) (attributes : List (String × Value))

namespace Value

instance : Inhabited Value := ⟨.null⟩

/-- Whether a value counts as given. -/
def isTrue : Value → Bool
  | .null => false
  | .bool b => b
  | .int n => n != 0
  | .float x => !x.isZero
  | .decimal d => !d.isZero
  | .text s => s != ""
  | .list items => !items.isEmpty
  | .tuple items => !items.isEmpty
  | .mapping entries => !entries.isEmpty
  | .member _ => true
  | .record _ _ => true

/-- Whether a value is absent. -/
def isNull : Value → Bool
  | .null => true
  | _ => false

/-- The name of the type of a value, for messages. -/
def typeName : Value → String
  | .null => "NoneType"
  | .bool _ => "bool"
  | .int _ => "int"
  | .float _ => "float"
  | .decimal _ => "Decimal"
  | .text _ => "str"
  | .list _ => "list"
  | .tuple _ => "tuple"
  | .mapping _ => "dict"
  | .member m => m.title
  | .record kind _ => kind.name

/-- The text of a value that has no parts and is no text itself. -/
def atomText : Value → String
  | .null => "None"
  | .bool b => if b then "True" else "False"
  | .int n => toString n
  | .float x => x.toText
  | .decimal d => d.toText
  | .member m => m.name
  | _ => ""

/-- How a list of shown items is closed to a tuple: one item keeps a comma. -/
def tupleText : List String → String
  | [item] => "(" ++ item ++ ",)"
  | items => "(" ++ Text.joinWith ", " items ++ ")"

mutual

/-- The text of a value inside another one. -/
def quoted : Value → String
  | .text s => Text.quote s
  | .list items => "[" ++ Text.joinWith ", " (quotedItems items) ++ "]"
  | .tuple items => tupleText (quotedItems items)
  | .mapping entries => "\x7b" ++ Text.joinWith ", " (quotedEntries entries) ++ "\x7d"
  | .record kind attributes =>
    kind.name ++ "(" ++ Text.joinWith ", " (quotedAttributes attributes) ++ ")"
  | .member m => "<" ++ m.name ++ ": " ++ Text.quote m.label ++ ">"
  | .decimal d => "Decimal('" ++ d.toText ++ "')"
  | v => atomText v

/-- The texts of items inside a list. -/
def quotedItems : List Value → List String
  | [] => []
  | v :: vs => quoted v :: quotedItems vs

/-- The texts of entries inside a mapping. -/
def quotedEntries : List (Value × Value) → List String
  | [] => []
  | (k, v) :: es => (quoted k ++ ": " ++ quoted v) :: quotedEntries es

/-- The texts of the attributes of a record. -/
def quotedAttributes : List (String × Value) → List String
  | [] => []
  | (name, v) :: es => (name ++ "=" ++ quoted v) :: quotedAttributes es

end

/-- The text of a value where SQL or a message shows it. -/
def toText : Value → String
  | .text s => s
  | .member m => m.name
  | .decimal d => d.toText
  | v => quoted v

/-- The value under a key, if the value is a mapping that has it. -/
def get? (key : String) : Value → Option Value
  | .mapping entries => find entries
  | _ => none
where
  /-- The value of the first entry with the key. -/
  find : List (Value × Value) → Option Value
    | [] => none
    | (.text k, v) :: es => if k = key then some v else find es
    | _ :: es => find es

end Value
end SchemaCompiler
