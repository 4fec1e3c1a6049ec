import SchemaCompiler.Migration.Document
import SchemaCompiler.Proofs.Migration.Faults

/-!
# The texts of a definition

What a definition comes to, from its value to the statements of its schema and the document that
these make.  Which way a definition took to get here has no part in it.

* `definitionTexts`, `policyTexts` — the statements of a definition, and those between two;
* `outcome_compileDocument`, `document_texts` — **a document says the same, whether it is compiled
  from schemas or made of their statements**.
-/

namespace SchemaCompiler

/-- The statements of the schema that a definition defines. -/
def definitionTexts (definition : Value) : Except Fault (List String) := do
  let schema ← Schema.ofValue definition
  (compile [schema]).outcome

theorem blames_definitionTexts (definition : Value) : Blames (definitionTexts definition) :=
  blames_bind (Schema.blames_ofValue definition) fun schema => blames_compile [schema]

/-- The statements between the policies of two definitions. -/
def policyTexts (old new : Value) : Except Fault (List String) := do
  let old ← Schema.ofValue old
  let new ← Schema.ofValue new
  (RowSecurity.schemaChangeTexts old new).outcome

theorem blames_policyTexts (old new : Value) : Blames (policyTexts old new) :=
  blames_bind (Schema.blames_ofValue old) fun _ =>
    blames_bind (Schema.blames_ofValue new) fun _ => RowSecurity.blames_schemaChangeTexts _ _

/-- A document is the statements under the header. -/
theorem outcome_compileDocument {h : Migration.Header} {utc : Time}
    (hutc : h.created.toUtc = .ok utc) (schemas : List Schema) :
    (Migration.compileDocument h schemas).outcome = do
      return Migration.documentText { h with created := utc } (← (compile schemas).outcome) := by
  rw [Migration.compileDocument, Traced.outcome_bind]
  cases (compile schemas).outcome with
  | error fault => rfl
  | ok statements =>
    rw [ok_bind, ok_bind, Traced.outcome_bind, Traced.outcome_lift, hutc]
    rfl

/-- A document of statements that were given as data. -/
theorem document_texts {h : Migration.Header} {utc : Time} (hutc : h.created.toUtc = .ok utc)
    (statements : List String) :
    Migration.document h (.list (statements.map .text)) =
      .ok (Migration.documentText { h with created := utc } statements) := by
  have htexts : (statements.map Value.text).mapM (Value.textOnly .wrongType) = .ok statements := by
    rw [mapM_eq_ok, List.forall₂_map_left_iff, List.forall₂_same]
    intro s _
    rfl
  rw [Migration.document, hutc, ok_bind]
  show ((statements.map Value.text).mapM (Value.textOnly .wrongType) >>= _) = _
  rw [htexts]
  rfl

end SchemaCompiler
