import SchemaCompiler.RowSecurity.Statement
import SchemaCompiler.Schema.Basic
import SchemaCompiler.Trace

/-!
# Changes of policies

How the policies of a table, or of all tables of a schema, are brought from one version to the
next.  Policies are matched by name.  `reconcile` says which names are dropped for good, which are
dropped to be created anew, and which policies are created; `Changes.statements` lists the
statements in that order, so that no policy is created under a name that is still taken.

* `policyChanges`, `schemaChanges` — the statements for a table and for a schema;
* `policyChangeTexts`, `policyChangeText`, `schemaChangeTexts` — the same in SQL.
-/

namespace SchemaCompiler.RowSecurity

/-- Whether two policies differ in more than their description. -/
def differ (old new : Policy) : Bool :=
  !(old.action == new.action && old.condition.same new.condition &&
    old.options.name.same new.options.name && old.options.roles.same new.options.roles &&
    old.options.withCheck.same new.options.withCheck)

/-- Policies with the names they are known by. -/
abbrev Named := List (Value × Policy)

/-- The policies of a table with their names, which have to be usable as keys. -/
def withNames (table : Value) (policies : List Policy) : Except Fault Named :=
  policies.mapM fun p => do
    let name ← policyName table p
    if name.isHashable then return (name, p) else .error (.misuse .wrongType)

/-- The first policy of a given name. -/
def Named.find? (name : Value) (policies : Named) : Option Policy :=
  (List.find? (fun p => p.1.same name) policies).map Prod.snd

/-- Of several policies of one name, only the first. -/
def Named.firsts : Named → Named
  | [] => []
  | (name, p) :: rest => (name, p) :: (firsts rest).filter fun q => !name.same q.1

/-- What has to be done to the policies of a table. -/
structure Changes where
  dropped : List Value
  recreated : List Value
  created : Named

/-- What brings the policies `old` to the policies `new`. -/
def reconcile (old new : Named) : Changes :=
  let old := old.firsts
  { dropped := (old.filter fun p => (new.find? p.1).isNone).map Prod.fst
    recreated := (new.filter fun p =>
      match old.find? p.1 with
      | some before => differ before p.2
      | none => false).map Prod.fst
    created := new.filter fun p =>
      match old.find? p.1 with
      | some before => differ before p.2
      | none => true }

/-- The statements for the changes of a table, in the order in which they can be run. -/
def Changes.statements (table : Value) (c : Changes) : List PolicyStatement :=
  (c.dropped.map (.drop table)) ++ (c.recreated.map (.drop table)) ++
    c.created.map fun p => .create table p.1 p.2

/-- The statements that bring the policies of a table from `old` to `new`. -/
def policyChanges (table : Value) (old new : List Policy) : Traced (List PolicyStatement) := do
  let old ← withNames table old
  let new ← withNames table new
  let changes := reconcile old new
  Traced.note .debug ("Policy changes for " ++ table.toText ++ ": " ++
    toString changes.dropped.length ++ " dropped, " ++
    toString changes.recreated.length ++ " recreated, " ++
    toString changes.created.length ++ " created")
  return changes.statements table

/-- The statements that bring the policies of all tables from one version of a schema to the next:
the tables of the new version in its order, then those that only the old one has. -/
def schemaChanges (old new : Schema) : Traced (List PolicyStatement) := do
  let kept ← Traced.each (fun t =>
    let before := (old.table? t.name).map Table.policies
    policyChanges t.name (before.getD []) t.policies) new.tables
  let gone ← Traced.each (fun t => policyChanges t.name t.policies [])
    (old.tables.filter fun t => (new.table? t.name).isNone)
  return kept.flatten ++ gone.flatten

/-- The changes of the policies of a table in SQL, one text for each statement. -/
def policyChangeTexts (table : Value) (old new : List Policy) : Traced (List String) := do
  return (← policyChanges table old new).map PolicyStatement.text

/-- The changes of the policies of a table in SQL, as one text. -/
def policyChangeText (table : Value) (old new : List Policy) : Traced String := do
  return Text.joinWith "\n" (← policyChangeTexts table old new)

/-- The changes of the policies of a schema in SQL, one text for each statement. -/
def schemaChangeTexts (old new : Schema) : Traced (List String) := do
  return (← schemaChanges old new).map PolicyStatement.text

end SchemaCompiler.RowSecurity
