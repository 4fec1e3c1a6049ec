import SchemaCompiler.Schema.Policy

/-!
# Tables

A table with everything that is declared along with it: fields, indexes, policies, triggers and
relationships, each list in the order of declaration.  `Table.make` refuses two fields of one name.
-/

namespace SchemaCompiler

/-- A column of a table. -/
structure Field where
  name : Value
  type : Value
  options : FieldOptions := {}

/-- A field from its definition. -/
def Field.ofValue (definition : Value) : Except Fault Field := do
  let name ← definition.require "name" "Field"
  let type ← definition.require "type" (phrase "Field" name)
  let options ← readOptions FieldOptions definition (phrase "field" name)
  return { name, type, options }

/-- The record that shows a field. -/
def Field.toValue (f : Field) : Value :=
  .record .field [("name", f.name), ("type", f.type), ("options", OptionSet.toValue f.options)]

/-- An index over fields of a table. -/
structure Index where
  fields : List String
  options : IndexOptions := {}

/-- An index from its parts: the fields are named by texts, and there is at least one. -/
def Index.make (fields : Value) (options : IndexOptions) : Except Fault Index :=
  if fields.isTrue then do
    return { fields := (← fields.items).map Value.toText, options }
  else .error (.schema .indexWithoutFields)

/-- An index from its definition. -/
def Index.ofValue (definition : Value) : Except Fault Index := do
  let columns ← definition.require "fields" "Index"
  let fields ← columns.items
  let options ← readOptions IndexOptions definition ("index on " ++ columns.toText)
  make (.list fields) options

/-- The record that shows an index. -/
def Index.toValue (i : Index) : Value :=
  .record .index [("fields", .list (i.fields.map .text)), ("options", OptionSet.toValue i.options)]

/-- A trigger of a table, whose body becomes a function of its own. -/
structure Trigger where
  name : Value
  events : List Value
  body : Value
  options : TriggerOptions := {}

/-- A trigger from its parts: it needs an event. -/
def Trigger.make (name : Value) (events : List Value) (body : Value) (options : TriggerOptions) :
    Except Fault Trigger :=
  if events.isEmpty then .error (.schema (.triggerWithoutEvents name.toText))
  else .ok { name, events, body, options }

/-- A trigger from its definition. -/
def Trigger.ofValue (definition : Value) : Except Fault Trigger := do
  let name ← definition.require "name" "Trigger"
  let events ← (← definition.require "events" (phrase "Trigger" name)).items
  let body ← definition.require "body" (phrase "Trigger" name)
  let options ← readOptions TriggerOptions definition (phrase "trigger" name)
  make name events body options

/-- The record that shows a trigger. -/
def Trigger.toValue (t : Trigger) : Value :=
  .record .trigger [("name", t.name), ("events", .list t.events), ("body", t.body),
    ("options", OptionSet.toValue t.options)]

/-- A link to another table, for information only. -/
structure Relationship where
  kind : Option RelationshipKind
  name : Value
  options : List (Value × Value) := []

/-- A relationship from its parts. -/
def Relationship.make (kind name : Value) (options : List (Value × Value)) :
    Except Fault Relationship := do
  return { kind := ← Vocabulary.read RelationshipKind kind "relationship kind", name, options }

/-- A relationship from its definition. -/
def Relationship.ofValue (definition : Value) : Except Fault Relationship := do
  let name ← definition.require "name" "Relationship"
  let kind ← definition.require "kind" (phrase "Relationship" name)
  let given ← definition.settingD "options" .null
  let options ← if given.isTrue then given.entries else .ok []
  make kind name options

/-- The record that shows a relationship. -/
def Relationship.toValue (r : Relationship) : Value :=
  .record .relationship [("kind", Vocabulary.toValue r.kind), ("name", r.name),
    ("options", .mapping r.options)]

/-- A table. -/
structure Table where
  name : Value
  fields : List Field := []
  indexes : List Index := []
  policies : List Policy := []
  triggers : List Trigger := []
  relationships : List Relationship := []
  rlsEnabled : Bool := false
  options : TableOptions := {}

namespace Table

/-- Refuse two fields of one name in the table `table`. -/
def checkFields (table : Value) (names : List (Except Fault Value)) : Except Fault Unit :=
  Value.checkDistinct (fun field => .schema (.duplicateField table.toText field.toText)) [] names

/-- The table itself, if no two of its fields have one name. -/
def checked (t : Table) : Except Fault Table := do
  checkFields t.name (t.fields.map fun f => .ok f.name)
  return t

/-- A table from its definition. -/
def ofValue (definition : Value) : Except Fault Table := do
  let name ← definition.require "name" "Table"
  let fields ← readEach Field.ofValue "fields" definition
  let indexes ← readEach Index.ofValue "indexes" definition
  let policies ← readEach Policy.ofValue "policies" definition
  let triggers ← readEach Trigger.ofValue "triggers" definition
  let relationships ← readEach Relationship.ofValue "relationships" definition
  let rlsEnabled := (← definition.settingD "rls_enabled" (.bool false)).isTrue
  let options ← readOptions TableOptions definition (phrase "table" name)
  checked { name, fields, indexes, policies, triggers, relationships, rlsEnabled, options }

/-- The record that shows a table. -/
def toValue (t : Table) : Value :=
  .record .table [("name", t.name), ("fields", .list (t.fields.map Field.toValue)),
    ("indexes", .list (t.indexes.map Index.toValue)),
    ("policies", .list (t.policies.map Policy.toValue)),
    ("triggers", .list (t.triggers.map Trigger.toValue)),
    ("relationships", .list (t.relationships.map Relationship.toValue)),
    ("rls_enabled", .bool t.rlsEnabled), ("options", OptionSet.toValue t.options)]

/-- The names of the fields that make up the primary key, in the order of declaration. -/
def primaryKey (t : Table) : List Value :=
  (t.fields.filter fun f => f.options.primaryKey.isTrue).map Field.name

/-- A table in one line. -/
def summary (t : Table) : String :=
  "Table(" ++ t.name.toText ++ ": " ++ toString t.fields.length ++ " fields)"

end Table
end SchemaCompiler
