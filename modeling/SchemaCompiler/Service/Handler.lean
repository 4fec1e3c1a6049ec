import SchemaCompiler.Migration.Document
import SchemaCompiler.RowSecurity.Changes
import SchemaCompiler.Service.Request
import SchemaCompiler.Service.Response

/-!
# The service

The compiler as a service: `GET /health`, `POST /generate` and `POST /policy-diff`.  `application`
is all that the service hands to a web framework: where its endpoints are found, which fields they
take and what they come to, and what it makes of faults and of other paths.
-/

namespace SchemaCompiler.Service

/-- An endpoint: where it is found, the fields of the body that it takes, and what it makes of their
values. -/
structure Endpoint where
  method : String
  path : String
  fields : List BodyField
  serve : List Value → Traced Reply

/-- An application: its endpoints, the handlers of faults, and the response where there is no
endpoint. -/
structure Application where
  endpoints : List Endpoint
  handler? : FaultKind → Option Handler
  notFound : String → Response

/-- Compile a definition to a document, or to a list of statements. -/
def compileDefinition (now : Time) (definition description format : Value) : Traced Reply :=
  let asJson := format.toText = "json"
  if asJson ∨ format.toText = "sql" then do
    let schema ← Schema.ofValue definition
    if asJson then return .statements (← compile [schema])
    else
      let usual : Settings := {}
      let header : Migration.Header :=
        { description, created := now, toolName := .text usual.toolName }
      return .text (← Migration.compileDocument header [schema])
  else Traced.pure .unknownFormat

/-- The statements between the policies of two definitions. -/
def comparePolicies (old new : Value) : Traced Reply := do
  let old ← Schema.ofValue old
  let new ← Schema.ofValue new
  return .statements (← RowSecurity.schemaChangeTexts old new)

/-- Whether the service is up. -/
def health : Endpoint where
  method := "GET"
  path := "/health"
  fields := []
  serve _ := Traced.pure .healthy

/-- To compile a definition. -/
def generate (now : Time) : Endpoint where
  method := "POST"
  path := "/generate"
  fields :=
    let usual : Settings := {}
    [{ name := "schema_definition", type := .mapping },
      { name := "description", type := .text, standIn := some (.text usual.description) },
      { name := "output_format", type := .text, standIn := some (.text "sql") }]
  serve
    | [definition, description, format] => compileDefinition now definition description format
    | _ => Traced.fail (.misuse .wrongType)

/-- To compare the policies of two definitions. -/
def policyDiff : Endpoint where
  method := "POST"
  path := "/policy-diff"
  fields :=
    [{ name := "old_schema", type := .mapping }, { name := "new_schema", type := .mapping }]
  serve
    | [old, new] => comparePolicies old new
    | _ => Traced.fail (.misuse .wrongType)

/-- The service, at a time. -/
def application (now : Time) : Application where
  endpoints := [health, generate now, policyDiff]
  handler? := handler?
  notFound := notFound

end SchemaCompiler.Service
