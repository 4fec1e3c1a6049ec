import SchemaCompiler.Migration.Statement
import SchemaCompiler.Migration.Time
import SchemaCompiler.Settings

/-!
# Migration documents

A migration document starts with three comment lines (its description, the time it was made and
the tool that made it), followed by the statements with an empty line between any two.
-/

namespace SchemaCompiler.Migration

open Text (joinWith)

/-- What stands at the top of a document. -/
structure Header where
  description : Value
  created : Time
  toolName : Value

/-- The text of a header, for a time in UTC. -/
def Header.text (h : Header) : String :=
  "-- " ++ h.description.toText ++ "\n" ++
    "-- Created: " ++ h.created.isoText ++ "\n" ++
    "-- Generated by: " ++ h.toolName.toText ++ "\n"

/-- The text of a document. -/
def documentText (h : Header) (statements : List String) : String :=
  h.text ++ "\n" ++ joinWith "\n\n" statements ++ "\n"

/-- A document of given statements. -/
def document (h : Header) (statements : Value) : Except Fault String := do
  let created ← h.created.toUtc
  let statements ← (← statements.items).mapM (Value.textOnly .wrongType)
  return documentText { h with created } statements

/-- The document for schemas. -/
def compileDocument (h : Header) (schemas : List Schema) : Traced String := do
  let statements ← compile schemas
  let created ← h.created.toUtc
  return documentText { h with created } statements

/-- The name of the file for a migration made at a given time. -/
def fileName (name : Value) (time : Time) : Except Fault String := do
  return (← time.toUtc).stamp ++ "_" ++ name.toText ++ ".sql"

end SchemaCompiler.Migration
