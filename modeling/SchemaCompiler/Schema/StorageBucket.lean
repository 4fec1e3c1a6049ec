import SchemaCompiler.Schema.Policy

/-!
# Storage buckets

A bucket for files, with the policies that say who may read and write them.
-/

namespace SchemaCompiler

/-- A storage bucket. -/
structure StorageBucket where
  name : Value
  policies : List Policy := []
  options : BucketOptions := {}

/-- A bucket from its definition. -/
def StorageBucket.ofValue (definition : Value) : Except Fault StorageBucket := do
  let name ← definition.require "name" "Storage bucket"
  let policies ← readEach Policy.ofValue "policies" definition
  let options ← readOptions BucketOptions definition (phrase "bucket" name)
  return { name, policies, options }

/-- The record that shows a bucket. -/
def StorageBucket.toValue (b : StorageBucket) : Value :=
  .record .storageBucket [("name", b.name), ("policies", .list (b.policies.map Policy.toValue)),
    ("options", OptionSet.toValue b.options)]

end SchemaCompiler
