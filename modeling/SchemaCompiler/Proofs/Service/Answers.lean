import SchemaCompiler.Proofs.Migration.Texts
import SchemaCompiler.Service.Framework

/-!
# What the service answers

The endpoints that compile come to the statements of the definitions that they are given, or to the
fault that stands in their place; and a framework sends what they come to, or what the handlers make
of the fault.

* `serve_json`, `serve_sql`, `serve_policyDiff` — what the endpoints make of definitions;
* `respond_of_schema`, `respond_of_misuse` — how faults are answered;
* `plain_documented` — the small framework answers as it should.
-/

namespace SchemaCompiler.Service

/-! ### Endpoints -/

/-- Asked for statements, the service gives those of the definition. -/
theorem serve_json (now : Time) (definition description : Value) :
    ((generate now).serve [definition, description, .text "json"]).outcome = do
      return .statements (← definitionTexts definition) := by
  have hjson : (Value.text "json").toText = "json" := rfl
  simp only [generate, compileDefinition, definitionTexts, hjson, true_or, if_true,
    Traced.outcome_bind, Traced.outcome_lift]
  cases Schema.ofValue definition with
  | error fault => rfl
  | ok schema => rfl

/-- Asked for a document, the service gives the one that its statements make. -/
theorem serve_sql {now utc : Time} (hutc : now.toUtc = .ok utc) (definition description : Value) :
    ((generate now).serve [definition, description, .text "sql"]).outcome = do
      return .text (Migration.documentText
        { description, created := utc, toolName := .text "Tenjin Framework" }
        (← definitionTexts definition)) := by
  have hsql : (Value.text "sql").toText = "sql" := rfl
  have hne : ¬"sql" = "json" := by decide
  simp only [generate, compileDefinition, definitionTexts, hsql, hne, or_true, if_true,
    if_false, Traced.outcome_bind, Traced.outcome_lift]
  cases Schema.ofValue definition with
  | error fault => rfl
  | ok schema =>
    rw [ok_bind, ok_bind, outcome_compileDocument hutc]
    cases (compile [schema]).outcome with
    | error fault => rfl
    | ok statements => rfl

/-- Asked to compare, the service gives the statements between the policies. -/
theorem serve_policyDiff (old new : Value) :
    (policyDiff.serve [old, new]).outcome = do
      return .statements (← policyTexts old new) := by
  simp only [policyDiff, comparePolicies, policyTexts, Traced.outcome_bind, Traced.outcome_lift]
  cases Schema.ofValue old with
  | error fault => rfl
  | ok old =>
    cases Schema.ofValue new with
    | error fault => rfl
    | ok new =>
      simp only [ok_bind]
      cases (RowSecurity.schemaChangeTexts old new).outcome with
      | error fault => rfl
      | ok statements => rfl

/-! ### Faults -/

section Faults

variable {respond : Framework} (hrespond : respond.Documented) {now : Time} {r : Request}
variable {endpoint : Endpoint} {values : List Value} (h : (application now).Asks r endpoint values)
include hrespond h

/-- A broken rule is answered with its wording. -/
theorem respond_of_schema {cause : SchemaFault}
    (hserve : (endpoint.serve values).outcome = .error (.schema cause)) :
    respond (application now) r = .failure 400 "Invalid schema definition" cause.message := by
  have hhandler : (application now).handler? (Fault.schema cause).kind = some schemaFaultHandler :=
    rfl
  obtain ⟨path, hresponse⟩ := hrespond.handled h hserve hhandler
  exact hresponse

/-- No handler takes a value that cannot be worked with. -/
theorem respond_of_misuse {cause : Misuse}
    (hserve : (endpoint.serve values).outcome = .error (.misuse cause)) :
    (respond (application now) r).status = 500 :=
  hrespond.unhandled h hserve rfl

end Faults

/-! ### The small framework -/

theorem values?_of_carries {r : Request} {fields : List BodyField} {values : List Value}
    (h : r.Carries fields values) : r.values? fields = some values := by
  obtain ⟨entries, hparse, hvalues⟩ := h.object
  unfold Request.values?
  split
  next hnone =>
    rw [List.isEmpty_iff.1 hnone] at hvalues
    exact hvalues
  next =>
    rw [if_pos h.sentAsJson, hparse]
    exact hvalues

/-- The small framework answers every request that asks an endpoint as it should. -/
theorem plain_documented : Framework.Documented plain where
  replied hasks hserve := by
    simp only [plain, hasks.found, values?_of_carries hasks.carried, hserve]
  handled {_ r _ _ _ _} hasks hserve hhandler := by
    refine ⟨r.path, ?_⟩
    simp only [plain, hasks.found, values?_of_carries hasks.carried, hserve, hhandler]
  unhandled hasks hserve hhandler := by
    simp only [plain, hasks.found, values?_of_carries hasks.carried, hserve, hhandler]

end SchemaCompiler.Service
