import SchemaCompiler.Schema.Options

/-!
# Policies

A policy says which rows a role may see or change: an action, a condition that the rows have to
meet, and a description that becomes its comment and, unless it is named, its name.
-/

namespace SchemaCompiler

/-- The phrase that names an object in a message. -/
def phrase (kind : String) (name : Value) : String := kind ++ " '" ++ name.toText ++ "'"

/-- Read every item of the list under a key of a definition; a missing list is empty. -/
def readEach {α : Type} (read : Value → Except Fault α) (key : String) (definition : Value) :
    Except Fault (List α) := do
  (← (← definition.settingD key (.list [])).items).mapM read

/-- Read the options of a definition. -/
def readOptions (α : Type) [OptionSet α] (definition : Value) (owner : String) :
    Except Fault α := do
  OptionSet.ofValue α (← definition.settingD "options" .null) owner

/-- A row level security policy, of a table or of a storage bucket. -/
structure Policy where
  action : PolicyAction
  description : Value
  condition : Value
  options : PolicyOptions := {}

namespace Policy

/-- A policy from its parts: it needs an action and a condition. -/
def make (action description condition : Value) (options : PolicyOptions) :
    Except Fault Policy := do
  match ← Vocabulary.read PolicyAction action "policy action" with
  | none => .error (.schema (.policyWithoutAction description.toText))
  | some action =>
    if condition.isTrue then .ok { action, description, condition, options }
    else .error (.schema (.policyWithoutCondition description.toText))

/-- A policy from its definition. -/
def ofValue (definition : Value) : Except Fault Policy := do
  let description ← definition.settingD "description" (.text "")
  let action ← definition.require "action" (phrase "Policy" description)
  let condition ← definition.require "condition" (phrase "Policy" description)
  let options ← readOptions PolicyOptions definition (phrase "policy" description)
  make action description condition options

/-- The record that shows a policy. -/
def toValue (p : Policy) : Value :=
  .record .policy [("action", .member (.policyAction p.action)), ("description", p.description),
    ("condition", p.condition), ("options", OptionSet.toValue p.options)]

/-- A policy in one line: its action and its name, or else its description. -/
def summary (p : Policy) : String :=
  let shown := if p.options.name.isTrue then p.options.name else p.description
  "Policy(" ++ Vocabulary.label p.action ++ ": " ++ shown.toText ++ ")"

end Policy
end SchemaCompiler
