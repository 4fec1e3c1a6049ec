import SchemaCompiler.RowSecurity.Name
import SchemaCompiler.Sql.Literal

/-!
# Policy statements

What is done to the policies of a table: one is created, with its description as a comment, or
dropped.  A `PolicyStatement` says which, and `PolicyStatement.text` writes it in SQL.

The condition of a policy decides which rows are visible (`USING`) or which new rows are allowed
(`WITH CHECK`), depending on its action: `policyClauses`.
-/

namespace SchemaCompiler.RowSecurity

open Text (joinWith)

/-- The keyword for an action. -/
def actionKeyword (action : PolicyAction) : String := Vocabulary.keyword action

/-- Whether a role stands for everyone. -/
def isEveryone (role : Value) : Bool := role.same (.text "all")

/-- The clause that restricts a policy to roles: a role, or a list of roles.  The role `all`, also
as one of a list, an empty list and no roles at all restrict nothing. -/
def roleClause (roles : Value) : String :=
  let among (rs : List Value) : String :=
    if rs.isEmpty || rs.any isEveryone then ""
    else "\n  TO " ++ joinWith ", " (rs.map Value.toText)
  match roles with
  | .null => ""
  | .list rs => among rs
  | .tuple rs => among rs
  | role => if isEveryone role then "" else "\n  TO " ++ role.toText

/-- A clause that holds a condition. -/
def conditionClause (keyword : String) (condition : Value) : String :=
  "\n  " ++ keyword ++ " (" ++ condition.toText ++ ")"

/-- The clauses for visible and for new rows. -/
def policyClauses (p : Policy) : String × String :=
  let visible := conditionClause "USING" p.condition
  match p.action with
  | .insert => ("", conditionClause "WITH CHECK" p.condition)
  | .select | .delete => (visible, "")
  | .update =>
    (visible, if p.options.withCheck.isTrue then conditionClause "WITH CHECK" p.options.withCheck
      else "")
  | .all => (visible, conditionClause "WITH CHECK" p.condition)

/-- What is done to a policy of a table. -/
inductive PolicyStatement where
  | create (table name : Value) (policy : Policy)
  | drop (table name : Value)

/-- The statement that drops a policy. -/
def dropPolicy (table name : Value) : String :=
  "DROP POLICY IF EXISTS " ++ name.toText ++ " ON " ++ table.toText ++ ";"

/-- The statements that create a policy and its comment. -/
def createNamedPolicy (table name : Value) (p : Policy) : String :=
  let (visible, check) := policyClauses p
  "CREATE POLICY " ++ name.toText ++ " ON " ++ table.toText ++ "\n" ++
    "  FOR " ++ actionKeyword p.action ++ roleClause p.options.roles ++ visible ++ check ++ ";\n" ++
    "COMMENT ON POLICY " ++ name.toText ++ " ON " ++ table.toText ++ " IS " ++
    Sql.literal p.description ++ ";"

/-- A policy statement in SQL. -/
def PolicyStatement.text : PolicyStatement → String
  | .create table name p => createNamedPolicy table name p
  | .drop table name => dropPolicy table name

/-- The statements that create a policy under its own name. -/
def createPolicy (table : Value) (p : Policy) : Except Fault String := do
  return createNamedPolicy table (← policyName table p) p

/-- The statements that create all policies of a table. -/
def createPolicies (t : Table) : Except Fault String := do
  return joinWith "\n" (← t.policies.mapM (createPolicy t.name))

/-- The table that holds the files of all storage buckets. -/
def storageObjects : Value := .text "storage.objects"

/-- The statements that create a policy of a storage bucket: its condition always decides which
rows are visible, and holds for the files of the bucket only. -/
def createStoragePolicy (bucket : Value) (p : Policy) : String :=
  let name := (storagePolicyName bucket p).toText
  let objects := storageObjects.toText
  "CREATE POLICY " ++ name ++ " ON " ++ objects ++ "\n" ++
    "  FOR " ++ actionKeyword p.action ++ roleClause p.options.roles ++ "\n" ++
    "  USING (bucket_id = " ++ Sql.literal bucket ++ " AND " ++ p.condition.toText ++ ");\n" ++
    "COMMENT ON POLICY " ++ name ++ " ON " ++ objects ++ " IS " ++ Sql.literal p.description ++ ";"

/-- The statement that drops a policy of a storage bucket. -/
def dropStoragePolicy (name : Value) : String := dropPolicy storageObjects name

end SchemaCompiler.RowSecurity
