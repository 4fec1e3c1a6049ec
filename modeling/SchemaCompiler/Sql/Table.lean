import SchemaCompiler.Schema.Table
import SchemaCompiler.Sql.Literal
import SchemaCompiler.Sql.TypeName
import SchemaCompiler.Text.Line
import SchemaCompiler.Trace

/-!
# Statements for tables

* `Sql.createTable` — `CREATE TABLE` and the comments of the table and its columns; a primary key
  of several columns is one constraint at the end, a single one is marked at its column;
* `Sql.createIndex` — `CREATE INDEX`, under the name of the index or one made of its parts;
* `Sql.createTrigger` — a function with the body of the trigger, and the trigger that calls it;
* `Sql.enableRowSecurity` — the switch for row level security.
-/

namespace SchemaCompiler.Sql

open Text (joinWith)

/-- A label in capitals, its words apart. -/
def spacedKeyword {α : Type} [Vocabulary α] (m : α) : String :=
  String.ofList ((Vocabulary.keyword m).toList.map fun c => if c = '_' then ' ' else c)

/-- The foreign key of a column, if it has one. -/
def referenceParts (o : FieldOptions) : List String :=
  if o.references.isTrue then
    ("REFERENCES " ++ o.references.toText) ::
      (o.onDelete.toList.map fun a => "ON DELETE " ++ spacedKeyword a) ++
      (o.onUpdate.toList.map fun a => "ON UPDATE " ++ spacedKeyword a)
  else []

/-- The default of a column, if it has one. -/
def defaultParts (default : Value) : Except Fault (List String) :=
  if default.isNull then .ok [] else (defaultText default).map fun text => ["DEFAULT " ++ text]

/-- The constraints of a column, in the order in which they are written; `default` is that for its
default. -/
def constraintParts (o : FieldOptions) (markPrimaryKey : Bool) (default : List String) :
    List String :=
  (if o.primaryKey.isTrue && markPrimaryKey then ["PRIMARY KEY"] else []) ++
  (match o.null with
    | .bool false => ["NOT NULL"]
    | _ => []) ++
  (if o.unique.isTrue then ["UNIQUE"] else []) ++
  default ++
  referenceParts o ++
  (if o.generated.isTrue then ["GENERATED ALWAYS AS (" ++ o.generated.toText ++ ") STORED"]
    else [])

/-- The definition of a column; `markPrimaryKey` is false where the primary key is a constraint of
the table. -/
def column (f : Field) (markPrimaryKey : Bool) : Except Fault String := do
  let type ← typeName f.type
  let default ← defaultParts f.options.default
  return joinWith " " ((f.name.toText ++ " " ++ type.toText) ::
    constraintParts f.options markPrimaryKey default)

/-- A comment on an object, if it is given. -/
def commentOn (object : String) (comment : Value) : List String :=
  if comment.isNull then []
  else ["COMMENT ON " ++ object ++ " IS " ++ literal comment ++ ";"]

/-- The definitions inside `CREATE TABLE`. -/
def tableBody (t : Table) : Except Fault (List String) := do
  let composite := 1 < t.primaryKey.length
  let columns ← t.fields.mapM fun f => column f !composite
  if composite then
    let names ← t.primaryKey.mapM (Value.textOnly .wrongType)
    return columns ++ ["PRIMARY KEY (" ++ joinWith ", " names ++ ")"]
  else return columns

/-- The comments of a table and its columns. -/
def tableComments (t : Table) : List String :=
  commentOn ("TABLE " ++ t.name.toText) t.options.comment ++
    t.fields.flatMap fun f =>
      commentOn ("COLUMN " ++ t.name.toText ++ "." ++ f.name.toText) f.options.comment

/-- The statements that create a table. -/
def createTable (t : Table) : Traced String := do
  let body ← tableBody t
  Traced.note .debug ("Rendered table " ++ t.name.toText ++ " with " ++
    toString t.fields.length ++ " fields")
  return joinWith "\n" (("CREATE TABLE " ++ t.name.toText ++ " (\n  " ++
    joinWith ",\n  " body ++ "\n);") :: tableComments t)

/-- The name of an index. -/
def indexName (table : Value) (i : Index) : Value :=
  if i.options.name.isTrue then i.options.name
  else .text (table.toText ++ "_" ++ joinWith "_" i.fields ++ "_" ++
    (if i.options.unique.isTrue then "unique" else "idx"))

/-- The statements that create an index. -/
def createIndex (table : Value) (i : Index) : String :=
  let o := i.options
  let name := (indexName table i).toText
  joinWith "\n" (("CREATE " ++ (if o.unique.isTrue then "UNIQUE " else "") ++ "INDEX " ++ name ++
    " ON " ++ table.toText ++
    (if o.method.isTrue then " USING " ++ o.method.toText else "") ++
    " (" ++ joinWith ", " i.fields ++ ")" ++
    (if o.condition.isTrue then " WHERE " ++ o.condition.toText else "") ++ ";") ::
      commentOn ("INDEX " ++ name) o.comment)

/-- The statements that create the indexes of a table. -/
def createIndexes (t : Table) : String :=
  joinWith "\n" (t.indexes.map (createIndex t.name))

/-- The name of the function behind a trigger. -/
def triggerFunctionName (table : Value) (t : Trigger) : String :=
  table.toText ++ "_" ++ t.name.toText ++ "_trigger_fn"

/-- The function behind a trigger. -/
def createTriggerFunction (table : Value) (t : Trigger) : String :=
  "CREATE OR REPLACE FUNCTION " ++ triggerFunctionName table t ++ "()\n" ++
    "RETURNS TRIGGER AS $$\n" ++
    "BEGIN\n" ++
    "  " ++ t.body.toText ++ "\n" ++
    "  RETURN NEW;\n" ++
    "END;\n" ++
    "$$ LANGUAGE plpgsql;"

/-- The trigger itself. -/
def attachTrigger (table : Value) (t : Trigger) : String :=
  let o := t.options
  let events := joinWith " OR " (t.events.map fun e => Text.upper e.toText)
  "CREATE TRIGGER " ++ t.name.toText ++ "\n" ++
    "  " ++ spacedKeyword o.timing ++ " " ++ events ++ " ON " ++ table.toText ++ "\n" ++
    "  FOR EACH " ++ Vocabulary.keyword o.scope ++
    (if o.condition.isTrue then " WHEN (" ++ o.condition.toText ++ ")" else "") ++ "\n" ++
    "  EXECUTE FUNCTION " ++ triggerFunctionName table t ++ "();"

/-- The statements that create a trigger. -/
def createTrigger (table : Value) (t : Trigger) : String :=
  createTriggerFunction table t ++ "\n\n" ++ attachTrigger table t

/-- The statements that create the triggers of a table. -/
def createTriggers (t : Table) : String :=
  joinWith "\n\n" (t.triggers.map (createTrigger t.name))

/-- The statement that switches row level security on. -/
def enableRowSecurity (table : Value) : String :=
  "ALTER TABLE " ++ table.toText ++ " ENABLE ROW LEVEL SECURITY;"

end SchemaCompiler.Sql
