import SchemaCompiler.FileTree.Basic
import SchemaCompiler.Json.Reader
import SchemaCompiler.Schema.Basic
import SchemaCompiler.Text.Blank
import SchemaCompiler.Trace

/-!
# Sources of schemas

Schemas come from a value, from JSON text, from a file of JSON text or from a directory of such
files, which are loaded in the order of their names.  One JSON text holds a schema or a list of
schemas.
-/

namespace SchemaCompiler.Source

/-- What is wrong with a definition whose JSON text is not read; `origin` says where it comes from.
Half of a character cannot be kept in a text, so reading ends with it. -/
def faultOf (origin : String) : Json.Failure → Fault
  | .malformed e => .schema (.invalidJson origin e)
  | .longNumber => .misuse .wrongValue
  | .halfCharacter => .misuse .halfCharacter

/-- Read JSON text; `origin` says where it comes from. -/
def readJson (text origin : String) : Except Fault Value :=
  (Json.parse text).mapError (faultOf origin)

/-- The schemas that a value holds. -/
def schemasOf (data : Value) (origin : String) : Except Fault (List Schema) :=
  match data with
  | .list items => items.mapM Schema.ofValue
  | .mapping entries => do return [← Schema.ofValue (.mapping entries)]
  | _ => .error (.schema (.noSchemaIn origin))

/-- The schemas of a file. -/
def loadFile (tree : FileTree) (path : String) : Traced (List Schema) := do
  Traced.note .debug ("Loading schema file " ++ path)
  let text ← tree.read path
  schemasOf (← readJson text path) path

/-- The names of the files of a directory that hold schemas, in order. -/
def schemaFiles (tree : FileTree) (directory : String) : List String :=
  (tree.names directory).filter (·.endsWith ".json")

/-- The schemas of a source that is a text: the path of a directory or of a file, or JSON text. -/
def loadText (tree : FileTree) (source : String) : Traced (List Schema) :=
  if tree.isDirectory source then do
    let loaded ← Traced.each (fun name => loadFile tree (joinPath source name))
      (schemaFiles tree source)
    return loaded.flatten
  else if tree.isFile source then loadFile tree source
  else
    let stripped := Text.strip source
    match stripped.toList.head? with
    | some '{' | some '[' => do
      schemasOf (← readJson stripped "JSON text") "JSON text"
    | _ => Traced.fail (.schema (.sourceNotFound source))

/-- The range of the numbers that could stand for an open file. -/
def isFileNumber (n : Int) : Bool := -2147483648 ≤ n && n ≤ 2147483647

/-- The schemas of a source.  A number could stand for an open file, but has no text to read. -/
def load (tree : FileTree) : Value → Traced (List Schema)
  | .text s => loadText tree s
  | .list items => schemasOf (.list items) "schema definition"
  | .mapping entries => schemasOf (.mapping entries) "schema definition"
  | .bool _ => Traced.fail (.misuse .noSuchPart)
  | .int n => Traced.fail (.misuse (if isFileNumber n then .noSuchPart else .outOfRange))
  | _ => Traced.fail (.misuse .wrongType)

end SchemaCompiler.Source
