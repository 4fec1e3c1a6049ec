import SchemaCompiler.Json.Reader

/-!
# Requests to the service

A request has a method, a path and a body.  An endpoint declares the fields of the JSON object that
it takes, each with the type of its value and with what stands for a value that is left out.
`Request.Carries` says that a request has values for the declared fields.
-/

namespace SchemaCompiler.Service

/-- A request. -/
structure Request where
  method : String
  path : String
  contentType : Option String := some "application/json"
  body : String := ""

/-- What the value of a field has to be. -/
inductive FieldType where
  | mapping | text
  deriving DecidableEq, Repr

/-- Whether a value is of a type. -/
def FieldType.fits : FieldType → Value → Bool
  | .mapping, .mapping _ => true
  | .text, .text _ => true
  | _, _ => false

/-- A field of a body, with what stands for its value if it may be left out. -/
structure BodyField where
  name : String
  type : FieldType
  standIn : Option Value := none

/-- The value of a field in a body, if it has one of the right type. -/
def BodyField.value? (field : BodyField) (body : Value) : Option Value :=
  match body.get? field.name with
  | some value => if field.type.fits value then some value else none
  | none => field.standIn

/-- A request is sent as JSON, for an object that has `values` for the declared fields. -/
structure Request.Carries (r : Request) (fields : List BodyField) (values : List Value) : Prop where
  sentAsJson : r.contentType = some "application/json"
  object : ∃ entries, Json.parse r.body = .ok (.mapping entries) ∧
    fields.mapM (·.value? (.mapping entries)) = some values

end SchemaCompiler.Service
