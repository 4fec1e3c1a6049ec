import SchemaCompiler.FileTree.Write
import SchemaCompiler.Migration.Document
import SchemaCompiler.Text.Digit

/-!
# Migration files

A migration is kept in a file whose name starts with the time it was made, so that the order of the
names is the order in which migrations are run.

* `Migration.create` — compile schemas and write the document to a new file;
* `Migration.listFiles` — the migrations in a directory.
-/

namespace SchemaCompiler

/-- A file with a migration. -/
structure MigrationFile where
  fileName : String
  path : String
  name : String
  timestamp : Option String := none
  content : Option String := none
  deriving DecidableEq, Repr

namespace Migration

/-- What a new migration file holds, and the time it was made in UTC. -/
def prepare (h : Header) (schemas : List Schema) : Traced (String × Time) := do
  let created ← h.created.toUtc
  let content ← compileDocument { h with created } schemas
  return (content, created)

/-- Write a document to a file, for which its directory is made if need be. -/
def store (tree : FileTree) (directory path content : String) : FileTree.Result :=
  match tree.makeDirectories directory with
  | (tree, .ok ()) => tree.write path (.text content)
  | failed => failed

/-- Compile schemas into a new file in a directory.  The tree is returned in any case, since a
directory may have been made for a file that could not be written. -/
def create (tree : FileTree) (directory name : String) (h : Header) (schemas : List Schema) :
    FileTree × Traced MigrationFile :=
  let prepared := prepare h schemas
  match prepared.outcome with
  | .error fault => (tree, ⟨prepared.log, .error fault⟩)
  | .ok (content, created) =>
    let fileName := created.stamp ++ "_" ++ name ++ ".sql"
    let path := joinPath directory fileName
    let (tree, written) := store tree directory path content
    (tree, do
      let _ ← prepared
      match written with
      | .error (.file cause) => Traced.fail (.migration path cause)
      | .error fault => Traced.fail fault
      | .ok () =>
        Traced.note .info ("Created migration " ++ path)
        return { fileName, path, name, timestamp := created.stamp, content })

/-- How many digits the time at the front of a file name has. -/
def stampLength : Nat := 14

/-- The file of a migration, by its name in a directory. -/
def describe (directory fileName : String) : MigrationFile :=
  let cs := fileName.toList
  let stamp := cs.take stampLength
  let stamped := stamp.length == stampLength && stamp.all Text.isDigit
  let stem := cs.take (cs.length - 4)
  { fileName, path := joinPath directory fileName
    name := String.ofList
      (if stamped && stem[stampLength]? == some '_' then stem.drop (stampLength + 1) else stem)
    timestamp := if stamped then some (String.ofList stamp) else none }

/-- The migrations in a directory, in the order of their file names. -/
def listFiles (tree : FileTree) (directory : String) : List MigrationFile :=
  ((tree.names directory).filter (·.endsWith ".sql")).map (describe directory)

end Migration
end SchemaCompiler
