import SchemaCompiler.Fault
import SchemaCompiler.Trace
import SchemaCompiler.Value.Basic

/-!
# Responses of the service

What the service answers.  A fault that the sender can mend is told apart from one that is not the
sender's: a wrong definition is status 400, another failure to compile is 500, and both are logged.
No handler takes an unforeseen fault.

* `Reply` — what an endpoint comes to;
* `schemaFaultHandler`, `failureHandler`, `handler?` — the responses to faults;
* `notFound` — the response where there is no endpoint.
-/

namespace SchemaCompiler.Service

/-- The body of a response: a text, or a JSON object with named fields. -/
inductive Content where
  | text (s : String)
  | object (fields : List (String × Value))

/-- A response. -/
structure Response where
  status : Nat
  content : Content

/-- What an endpoint comes to: a text, a record of the declared model, or a refusal with a status of
its own. -/
inductive Reply where
  | text (s : String)
  | record (fields : List (String × Value))
  | refusal (status : Nat) (detail : String)

/-- A list of statements as a record. -/
def Reply.statements (texts : List String) : Reply :=
  .record [("statements", .list (texts.map .text))]

/-- The version of the service. -/
def version : String := "0.1.0"

/-- The service is up. -/
def Reply.healthy : Reply := .record [("status", .text "healthy"), ("version", .text version)]

/-- The format of the answer is unknown. -/
def Reply.unknownFormat : Reply := .refusal 400 "output_format must be 'sql' or 'json'"

/-- A failure that is explained. -/
def Response.failure (status : Nat) (error detail : String) : Response :=
  ⟨status, .object [("error", .text error), ("detail", .text detail)]⟩

/-- What is made of a fault on a path, given with its wording: an entry of the log and a response. -/
abbrev Handler := String → String → LogEntry × Response

/-- The definition is wrong. -/
def schemaFaultHandler : Handler := fun path message =>
  (⟨.info, "Rejected schema definition on " ++ path ++ ": " ++ message⟩,
    .failure 400 "Invalid schema definition" message)

/-- The definition is right, and there is no result all the same. -/
def failureHandler : Handler := fun path message =>
  (⟨.error, "Compilation failed on " ++ path ++ ": " ++ message⟩,
    .failure 500 "Compilation failed" message)

/-- The handler that is registered for faults of a kind. -/
def handler? : FaultKind → Option Handler
  | .definition => some schemaFaultHandler
  | .migration | .request => some failureHandler
  | .unforeseen => none

/-- There is nothing at the path. -/
def notFound (path : String) : Response :=
  ⟨404, .object [("error", .text "Endpoint not found"), ("path", .text path)]⟩

end SchemaCompiler.Service
