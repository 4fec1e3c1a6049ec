import SchemaCompiler.Schema.Table
import SchemaCompiler.Text.Blank
import SchemaCompiler.Text.Line

/-!
# Names of policies

A policy is known by its name.  One that has none is named after its table, its action and the
first three words of its description, reduced to the letters `a` to `z` and digits; a policy of a
storage bucket is named after the bucket and its action.
-/

namespace SchemaCompiler.RowSecurity

open Text (joinWith)

/-- Whether a character may stand in a derived name. -/
def isNameChar (c : Char) : Bool := ('a' ≤ c && c ≤ 'z') || ('0' ≤ c && c ≤ '9')

/-- The words of a description in lower case, without what cannot stand in a name. -/
def descriptionWords (description : String) : List (List Char) :=
  Text.words ((Text.lower description).toList.filter fun c => isNameChar c || Text.isBlank c)

/-- The name made of table, action and description. -/
def derivedName (table : Value) (action : PolicyAction) (description : Value) :
    Except Fault String := do
  let description ← description.textOnly .noSuchPart
  return table.toText ++ "_" ++ Vocabulary.label action ++ "_" ++
    joinWith "_" (((descriptionWords description).take 3).map String.ofList)

/-- The name of a policy of a table. -/
def policyName (table : Value) (p : Policy) : Except Fault Value :=
  if p.options.name.isTrue then .ok p.options.name
  else (derivedName table p.action p.description).map .text

/-- The name of a policy of a storage bucket. -/
def storagePolicyName (bucket : Value) (p : Policy) : Value :=
  if p.options.name.isTrue then p.options.name
  else .text (bucket.toText ++ "_" ++ Vocabulary.label p.action ++ "_policy")

end SchemaCompiler.RowSecurity
