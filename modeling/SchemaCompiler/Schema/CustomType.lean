import SchemaCompiler.Schema.Policy

/-!
# Custom types

A type of the user's own: an enum with its labels, a composite with its columns, or a domain over
another type.  `CustomType.make` asks for the data that the kind needs.
-/

namespace SchemaCompiler

/-- A custom type. -/
structure CustomType where
  name : Value
  kind : Option TypeKind
  values : Value := .null
  fields : Value := .null
  baseType : Value := .null
  constraint : Value := .null

namespace CustomType

/-- The columns of a composite: pairs of a name and a type, or a mapping from names to types. -/
def columns (fields : Value) : Except Fault (List Value) := do
  match fields with
  | .mapping entries => return entries.map fun e => .tuple [e.1, e.2]
  | _ => (← fields.items).mapM fun column => return .tuple (← column.items)

/-- A custom type from its parts. -/
def make (name kind values fields baseType constraint : Value) : Except Fault CustomType := do
  let kind ← Vocabulary.read TypeKind kind "custom type kind"
  match kind with
  | some .enum =>
    if values.isTrue then return { name, kind, values, fields, baseType, constraint }
    else .error (.schema (.enumWithoutValues name.toText))
  | some .composite =>
    if fields.isTrue then
      return { name, kind, values, fields := .list (← columns fields), baseType, constraint }
    else .error (.schema (.compositeWithoutFields name.toText))
  | some .domain =>
    if baseType.isNull then .error (.schema (.domainWithoutBase name.toText))
    else return { name, kind, values, fields, baseType, constraint }
  | none => return { name, kind, values, fields, baseType, constraint }

/-- A custom type from its definition. -/
def ofValue (definition : Value) : Except Fault CustomType := do
  let name ← definition.require "name" "Custom type"
  let kind ← definition.require "kind" (phrase "Custom type" name)
  let values ← definition.settingD "values" .null
  let fields ← definition.settingD "fields" .null
  let baseType ← definition.settingD "base_type" .null
  let constraint ← definition.settingD "constraint" .null
  make name kind values fields baseType constraint

/-- The record that shows a custom type. -/
def toValue (t : CustomType) : Value :=
  .record .customType [("name", t.name), ("kind", Vocabulary.toValue t.kind),
    ("values", t.values), ("fields", t.fields), ("base_type", t.baseType),
    ("constraint", t.constraint)]

end CustomType
end SchemaCompiler
