import SchemaCompiler.Schema.Policy

/-!
# Policy templates

Ready-made policies for common needs: rows of their owner, rows that everyone may read, and rows
for users who are signed in.
-/

namespace SchemaCompiler.RowSecurity

/-- Every action, on rows of the current user only. -/
def userOwnsRecord (userField : Value) : Policy where
  action := .all
  description := .text "Users can only access their own records"
  condition := .text ("auth.uid() = " ++ userField.toText)

/-- Everyone may read all rows. -/
def publicRead : Policy where
  action := .select
  description := .text "Public read access"
  condition := .text "true"

/-- One policy per action that asks for a user who is signed in; one action may stand alone. -/
def authenticatedOnly (actions : Value) : Except Fault (List Policy) := do
  let actions ←
    match actions with
    | .text s => .ok [.text s]
    | .member (.policyAction a) => .ok [.member (.policyAction a)]
    | several => several.items
  actions.mapM fun action =>
    Policy.make action (.text "Authenticated users only") (.text "auth.uid() IS NOT NULL") {}

/-- The actions that change rows. -/
def writingActions : Value :=
  .tuple [.member (.policyAction .insert), .member (.policyAction .update),
    .member (.policyAction .delete)]

/-- Everyone may read published rows, and owners their own. -/
def ownerOrPublicRead (ownerField publishedField : Value) : List Policy :=
  [{ action := .select
     description := .text "Public can read published records"
     condition := .text (publishedField.toText ++ " = true") },
   { action := .select
     description := .text "Owners can read their own records"
     condition := .text ("auth.uid() = " ++ ownerField.toText)
     options := { roles := .text "authenticated" } }]

end SchemaCompiler.RowSecurity
