import SchemaCompiler.RowSecurity.Statement
import SchemaCompiler.Schema.Basic
import SchemaCompiler.Sql.Object

/-!
# Statements of a migration

What a schema compiles to.  `Schema.statements` lists the blocks of the migration in an order in
which they can be run: custom types, then table by table the table itself, its row level security,
policies, indexes and triggers, then functions, views and storage buckets with their policies.
`Statement.render` writes one block.
-/

namespace SchemaCompiler

/-- One block of a migration. -/
inductive Statement where
  | customType (type : CustomType)
  | table (table : Table)
  | rowSecurity (table : Table)
  | policies (table : Table)
  | indexes (table : Table)
  | triggers (table : Table)
  | function (function : Function)
  | view (view : View)
  | bucket (bucket : StorageBucket)
  | bucketPolicy (bucket : StorageBucket) (policy : Policy)

/-- The blocks for a table. -/
def Table.statements (t : Table) : List Statement :=
  .table t ::
    ((if t.rlsEnabled then [.rowSecurity t] else []) ++
     (if t.policies.isEmpty then [] else [.policies t]) ++
     (if t.indexes.isEmpty then [] else [.indexes t]) ++
     (if t.triggers.isEmpty then [] else [.triggers t]))

/-- The blocks for a storage bucket. -/
def StorageBucket.statements (b : StorageBucket) : List Statement :=
  .bucket b :: b.policies.map (.bucketPolicy b)

/-- The blocks for a schema. -/
def Schema.statements (s : Schema) : List Statement :=
  s.customTypes.map .customType ++
  s.tables.flatMap Table.statements ++
  s.functions.map .function ++
  s.views.map .view ++
  s.storageBuckets.flatMap StorageBucket.statements

namespace Statement

/-- The policies of a table; without row level security they are of no use, which is logged. -/
def renderPolicies (t : Table) : Traced String := do
  if !t.rlsEnabled then
    Traced.note .warning ("Table " ++ t.name.toText ++ " declares " ++
      toString t.policies.length ++
      " policies but RLS is not enabled; they will have no effect until it is")
  RowSecurity.createPolicies t

/-- The SQL of a block. -/
def render : Statement → Traced String
  | .customType t => Sql.createType t
  | .table t => Sql.createTable t
  | .rowSecurity t => return Sql.enableRowSecurity t.name
  | .policies t => renderPolicies t
  | .indexes t => return Sql.createIndexes t
  | .triggers t => return Sql.createTriggers t
  | .function f => Sql.createFunction f
  | .view v => Sql.createView v
  | .bucket b => Sql.upsertBucket b
  | .bucketPolicy b p => return RowSecurity.createStoragePolicy b.name p

/-- The SQL of several blocks. -/
def renderAll (statements : List Statement) : Traced (List String) :=
  Traced.each render statements

end Statement

/-- The SQL of a schema, block by block. -/
def compileSchema (s : Schema) : Traced (List String) := do
  let statements ← Statement.renderAll s.statements
  Traced.note .debug ("Generated " ++ toString statements.length ++ " statements for " ++ s.summary)
  return statements

/-- The SQL of several schemas, one after the other. -/
def compile (schemas : List Schema) : Traced (List String) := do
  let blocks ← Traced.each compileSchema schemas
  return blocks.flatten.filter (· ≠ "")

end SchemaCompiler
