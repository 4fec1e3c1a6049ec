import SchemaCompiler.Schema.CustomType
import SchemaCompiler.Schema.Function
import SchemaCompiler.Schema.StorageBucket
import SchemaCompiler.Schema.Table

/-!
# Schemas

A schema is the lists of all declared objects, each in the order of declaration.  `Schema.checked`
refuses two tables of one name, and `Schema.ofValue` reads a schema from its definition.
-/

namespace SchemaCompiler

/-- A schema. -/
structure Schema where
  tables : List Table := []
  functions : List Function := []
  views : List View := []
  storageBuckets : List StorageBucket := []
  customTypes : List CustomType := []

namespace Schema

/-- Refuse two tables of one name. -/
def checkTables (names : List (Except Fault Value)) : Except Fault Unit :=
  Value.checkDistinct (fun table => .schema (.duplicateTable table.toText)) [] names

/-- The schema itself, if no two of its tables have one name. -/
def checked (s : Schema) : Except Fault Schema := do
  checkTables (s.tables.map fun t => .ok t.name)
  return s

/-- A schema from its definition. -/
def ofValue (definition : Value) : Except Fault Schema := do
  match definition with
  | .mapping _ =>
    let tables ← readEach Table.ofValue "tables" definition
    let functions ← readEach Function.ofValue "functions" definition
    let views ← readEach View.ofValue "views" definition
    let storageBuckets ← readEach StorageBucket.ofValue "storage_buckets" definition
    let customTypes ← readEach CustomType.ofValue "custom_types" definition
    checked { tables, functions, views, storageBuckets, customTypes }
  | other => .error (.schema (.schemaNotMapping other.typeName))

/-- The first table of a given name. -/
def table? (s : Schema) (name : Value) : Option Table :=
  s.tables.find? fun t => t.name.equal name

/-- The record that shows a schema. -/
def toValue (s : Schema) : Value :=
  .record .schema [("tables", .list (s.tables.map Table.toValue)),
    ("functions", .list (s.functions.map Function.toValue)),
    ("views", .list (s.views.map View.toValue)),
    ("storage_buckets", .list (s.storageBuckets.map StorageBucket.toValue)),
    ("custom_types", .list (s.customTypes.map CustomType.toValue))]

/-- A schema in one line: how many objects of each kind it declares. -/
def summary (s : Schema) : String :=
  "Schema(" ++ toString s.tables.length ++ " tables, " ++ toString s.functions.length ++
    " functions, " ++ toString s.views.length ++ " views, " ++
    toString s.storageBuckets.length ++ " buckets, " ++ toString s.customTypes.length ++ " types)"

end Schema
end SchemaCompiler
