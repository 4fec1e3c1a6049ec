import SchemaCompiler.Json.Error
import SchemaCompiler.Text.Line
import SchemaCompiler.Text.Quoted

/-!
# Faults

Everything that can go wrong, by cause.  A `SchemaFault` is a definition that breaks a rule of the
definition language; a `FileError` is what the file system answers; a `Misuse` is a value that an
operation cannot work with at all, such as a number where a list is needed.  The wording is in
`SchemaFault.message`, `FileError.message` and `Fault.message`.
-/

namespace SchemaCompiler

/-- A definition that breaks a rule.  An `owner` is the phrase that names the object at fault. -/
inductive SchemaFault where
  | missing (owner key : String)
  | unknownOption (owner key : String)
  | optionsNotMapping (owner typeName : String)
  | notInVocabulary (what value : String) (vocabulary : List String)
  | policyWithoutAction (description : String)
  | policyWithoutCondition (description : String)
  | indexWithoutFields
  | triggerWithoutEvents (trigger : String)
  | duplicateField (table field : String)
  | duplicateTable (table : String)
  | enumWithoutValues (type : String)
  | compositeWithoutFields (type : String)
  | domainWithoutBase (type : String)
  | schemaNotMapping (typeName : String)
  | invalidJson (origin : String) (cause : Json.Error)
  | noSchemaIn (origin : String)
  | sourceNotFound (source : String)
  | blockClosed (operation kind : String)
  | blockNested (kind name openKind openName : String)
  | blockOpen (kind name : String)
  deriving DecidableEq, Repr

/-- The wording of a broken rule. -/
def SchemaFault.message : SchemaFault → String
  | .missing owner key => owner ++ " is missing required '" ++ key ++ "'"
  | .unknownOption owner key => "Unknown option '" ++ key ++ "' for " ++ owner
  | .optionsNotMapping owner typeName =>
    "Options for " ++ owner ++ " must be a mapping, got " ++ typeName
  | .notInVocabulary what value vocabulary =>
    "Invalid " ++ what ++ " '" ++ value ++ "', expected one of: " ++ Text.joinWith ", " vocabulary
  | .policyWithoutAction description => "Policy '" ++ description ++ "' has no action"
  | .policyWithoutCondition description => "Policy '" ++ description ++ "' has no condition"
  | .indexWithoutFields => "Index must cover at least one field"
  | .triggerWithoutEvents trigger => "Trigger '" ++ trigger ++ "' has no events"
  | .duplicateField table field =>
    "Duplicate field '" ++ field ++ "' in table '" ++ table ++ "'"
  | .duplicateTable table => "Duplicate table '" ++ table ++ "'"
  | .enumWithoutValues type => "Enum type '" ++ type ++ "' requires values"
  | .compositeWithoutFields type => "Composite type '" ++ type ++ "' requires fields"
  | .domainWithoutBase type => "Domain '" ++ type ++ "' requires a base_type"
  | .schemaNotMapping typeName => "Schema definition must be a mapping, got " ++ typeName
  | .invalidJson origin cause => "Invalid JSON in " ++ origin ++ ": " ++ cause.message
  | .noSchemaIn origin => "Expected a schema object or list of schemas in " ++ origin
  | .sourceNotFound source => "Schema source not found: " ++ source
  | .blockClosed operation kind =>
    operation ++ "() can only be used inside a " ++ kind ++ " block"
  | .blockNested kind name openKind openName =>
    kind ++ " '" ++ name ++ "' cannot be nested inside " ++ openKind ++ " '" ++ openName ++ "'"
  | .blockOpen kind name => "Cannot build schema while " ++ kind ++ " '" ++ name ++ "' is open"

/-- What the file system answers to a request it refuses. -/
inductive FileRefusal where
  | noEntry | exists | notDirectory | isDirectory | nameTooLong
  deriving DecidableEq, Repr

/-- The number and wording of a refusal. -/
def FileRefusal.message : FileRefusal → String
  | .noEntry => "[Errno 2] No such file or directory"
  | .exists => "[Errno 17] File exists"
  | .notDirectory => "[Errno 20] Not a directory"
  | .isDirectory => "[Errno 21] Is a directory"
  | .nameTooLong => "[Errno 36] File name too long"

/-- A refused request and the path it was about. -/
structure FileError where
  refusal : FileRefusal
  path : String
  deriving DecidableEq, Repr

/-- The wording of a file error. -/
def FileError.message (e : FileError) : String :=
  e.refusal.message ++ ": " ++ Text.quote e.path

/-- A value that an operation cannot work with. -/
inductive Misuse where
  /-- The operation does not take values of this type. -/
  | wrongType
  /-- The value has no such part. -/
  | noSuchPart
  /-- The type is right, but the value is not one that the operation takes. -/
  | wrongValue
  /-- A table has no entry for the value. -/
  | noSuchEntry
  /-- A list has no item at the place. -/
  | noSuchPlace
  /-- The result is too large to be represented. -/
  | outOfRange
  /-- The bytes are no text. -/
  | notText
  /-- A text has a character that the standard output cannot encode. -/
  | notEncodable
  /-- An escape stands for half of a character, so that what it stands in is no sequence of
  characters, and no text. -/
  | halfCharacter
  deriving DecidableEq, Repr

/-- Why an operation gave no result. -/
inductive Fault where
  | schema (cause : SchemaFault)
  | migration (path : String) (cause : FileError)
  | notOneSchemaEach
  | file (cause : FileError)
  | misuse (cause : Misuse)
  deriving DecidableEq, Repr

/-- What a fault is about. -/
inductive FaultKind where
  /-- The definition is wrong. -/
  | definition
  /-- A migration could not be written. -/
  | migration
  /-- What was asked for cannot be done, although each definition is right. -/
  | request
  /-- Something that the program does not foresee. -/
  | unforeseen
  deriving DecidableEq, Repr

/-- What a fault is about. -/
def Fault.kind : Fault → FaultKind
  | .schema _ => .definition
  | .migration _ _ => .migration
  | .notOneSchemaEach => .request
  | .file _ => .unforeseen
  | .misuse _ => .unforeseen

/-- The wording of a fault. -/
def Fault.message : Fault → String
  | .schema cause => cause.message
  | .migration path cause => "Could not write migration " ++ path ++ ": " ++ cause.message
  | .notOneSchemaEach => "policy-diff expects exactly one schema on each side"
  | .file cause => cause.message
  | .misuse _ => ""

end SchemaCompiler
