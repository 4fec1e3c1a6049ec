import SchemaCompiler.Service.Handler

/-!
# Web frameworks

The service runs inside a web framework that is no part of it.  A framework receives the requests:
it finds the endpoint, reads the body and checks the declared fields, and it turns what endpoints
and handlers come to into responses.  What is relied on is `Framework.Documented`, and nothing is
assumed of other requests: how a body that is no JSON, an unknown path or a wrong method are
answered is left to the framework.

* `Application.Asks` — a request that an endpoint is there for, with values for its fields;
* `Framework.Documented` — how such requests are answered;
* `plain` — a small framework that answers them so.
-/

namespace SchemaCompiler.Service

/-- A web framework: how it answers the requests to an application. -/
abbrev Framework := Application → Request → Response

/-- The endpoint for the path and the method of a request. -/
def Application.endpoint? (app : Application) (r : Request) : Option Endpoint :=
  app.endpoints.find? fun endpoint => endpoint.path == r.path && endpoint.method == r.method

/-- A request asks an endpoint of an application about values of its fields. -/
structure Application.Asks (app : Application) (r : Request) (endpoint : Endpoint)
    (values : List Value) : Prop where
  found : app.endpoint? r = some endpoint
  carried : r.Carries endpoint.fields values

/-- The response that a reply is sent as: a text as it is, a record as JSON, and the detail of a
refusal as the one field of an object. -/
def Reply.response : Reply → Response
  | .text s => ⟨200, .text s⟩
  | .record fields => ⟨200, .object fields⟩
  | .refusal status detail => ⟨status, .object [("detail", .text detail)]⟩

/-- What a framework does with a request that asks an endpoint about values. -/
structure Framework.Documented (respond : Framework) : Prop where
  /-- The reply of the endpoint is sent. -/
  replied {app : Application} {r : Request} {endpoint : Endpoint} {values : List Value}
    {reply : Reply} (hasks : app.Asks r endpoint values)
    (hserve : (endpoint.serve values).outcome = .ok reply) : respond app r = reply.response
  /-- A fault of a kind that has a handler is answered by it.  Which path the handler is told is
  left open. -/
  handled {app : Application} {r : Request} {endpoint : Endpoint} {values : List Value}
    {fault : Fault} {handler : Handler} (hasks : app.Asks r endpoint values)
    (hserve : (endpoint.serve values).outcome = .error fault)
    (hhandler : app.handler? fault.kind = some handler) :
    ∃ path, respond app r = (handler path fault.message).2
  /-- A fault that has none is an internal error. -/
  unhandled {app : Application} {r : Request} {endpoint : Endpoint} {values : List Value}
    {fault : Fault} (hasks : app.Asks r endpoint values)
    (hserve : (endpoint.serve values).outcome = .error fault)
    (hhandler : app.handler? fault.kind = none) : (respond app r).status = 500

/-- The values of the declared fields in a request that is sent as JSON. -/
def Request.values? (r : Request) (fields : List BodyField) : Option (List Value) :=
  if fields.isEmpty then some []
  else if r.contentType = some "application/json" then
    match Json.parse r.body with
    | .ok (.mapping entries) => fields.mapM (·.value? (.mapping entries))
    | _ => none
  else none

/-- A framework that answers whatever it cannot read with an error without details. -/
def plain : Framework := fun app r =>
  match app.endpoint? r with
  | none => app.notFound r.path
  | some endpoint =>
    match r.values? endpoint.fields with
    | none => ⟨422, .text "Unprocessable Content"⟩
    | some values =>
      match (endpoint.serve values).outcome with
      | .ok reply => reply.response
      | .error fault =>
        match app.handler? fault.kind with
        | some handler => (handler r.path fault.message).2
        | none => ⟨500, .text "Internal Server Error"⟩

end SchemaCompiler.Service
