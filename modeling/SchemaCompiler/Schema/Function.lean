import SchemaCompiler.Schema.Policy

/-!
# Functions and views

Objects that are declared by a name and a text: a function, whose arguments have types but no
names, and a view.
-/

namespace SchemaCompiler

/-- A function; its body refers to the arguments by position. -/
structure Function where
  name : Value
  args : List Value
  returnType : Value
  body : Value
  options : FunctionOptions := {}

/-- A function from its definition. -/
def Function.ofValue (definition : Value) : Except Fault Function := do
  let name ← definition.require "name" "Function"
  let args ← (← definition.settingD "args" (.list [])).items
  let returnType ← definition.require "return_type" (phrase "Function" name)
  let body ← definition.require "body" (phrase "Function" name)
  let options ← readOptions FunctionOptions definition (phrase "function" name)
  return { name, args, returnType, body, options }

/-- The record that shows a function. -/
def Function.toValue (f : Function) : Value :=
  .record .function [("name", f.name), ("args", .list f.args), ("return_type", f.returnType),
    ("body", f.body), ("options", OptionSet.toValue f.options)]

/-- A view. -/
structure View where
  name : Value
  query : Value
  options : ViewOptions := {}

/-- A view from its definition. -/
def View.ofValue (definition : Value) : Except Fault View := do
  let name ← definition.require "name" "View"
  let query ← definition.require "query" (phrase "View" name)
  let options ← readOptions ViewOptions definition (phrase "view" name)
  return { name, query, options }

/-- The record that shows a view. -/
def View.toValue (v : View) : Value :=
  .record .view [("name", v.name), ("query", v.query), ("options", OptionSet.toValue v.options)]

end SchemaCompiler
