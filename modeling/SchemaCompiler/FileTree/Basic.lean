import SchemaCompiler.Fault
import SchemaCompiler.Text.Line

/-!
# File trees

The files and directories below a working directory, as a value.  A path is looked up part by part
from the working directory or, if it starts with a slash, from the root of the file system.  The
directories above the working directory and the root are there, and they hold nothing but what is
put into them.  There are no links: a file has one place, and what is written there changes no other
file.

* `FileTree.locate` — the place that a path names, or why it names none;
* `FileTree.isDirectory`, `FileTree.isFile`, `FileTree.names`, `FileTree.read` — what is there;
* `FileTree.files` — all files below the working directory, with their paths from there.
-/

namespace SchemaCompiler

/-- What a file holds: a text, or bytes that are no UTF-8. -/
inductive FileContent where
  | text (s : String)
  | bytes (b : List UInt8)
  deriving DecidableEq, Repr

/-- A file or a directory. -/
inductive FileNode where
  | file (content : FileContent)
  | directory (entries : List (String × FileNode))

/-- A directory that a path can start from. -/
inductive Anchor where
  | working
  /-- A directory above the working directory: the next one for `0`, and so on. -/
  | above (levels : Nat)
  | root
  deriving DecidableEq, Repr

/-- The directory above an anchor; the root is above itself. -/
def Anchor.up : Anchor → Anchor
  | .working => .above 0
  | .above levels => .above (levels + 1)
  | .root => .root

/-- A place: an anchor, and the names that lead on from there, the last one first. -/
structure Place where
  anchor : Anchor := .working
  names : List String := []
  deriving DecidableEq, Repr

namespace Place

/-- The place of an entry. -/
def child (place : Place) (name : String) : Place := { place with names := name :: place.names }

/-- The place of the directory above. -/
def parent : Place → Place
  | ⟨anchor, []⟩ => ⟨anchor.up, []⟩
  | ⟨anchor, _ :: names⟩ => ⟨anchor, names⟩

end Place

/-- The entries of a working directory, and what is in directories outside of it. -/
structure FileTree where
  entries : List (String × FileNode) := []
  outside : List (Anchor × List (String × FileNode)) := []

namespace FileNode

/-- The entries of a directory; a file has none. -/
def entries : FileNode → List (String × FileNode)
  | .file _ => []
  | .directory es => es

/-- Whether the node is a directory. -/
def isDirectory : FileNode → Bool
  | .file _ => false
  | .directory _ => true

/-- The entry of a name. -/
def child? (node : FileNode) (name : String) : Option FileNode := node.entries.lookup name

/-- The node below a node that a list of names leads to. -/
def below? : List String → FileNode → Option FileNode
  | [], node => some node
  | name :: names, node => (node.child? name).bind (below? names)

end FileNode

/-- A path as the file system takes it apart: the parts between the slashes. -/
def pathParts (path : String) : List String :=
  (Text.splitAt '/' path.toList).map String.ofList

/-- The longest name of a file, in bytes. -/
def longestName : Nat := 255

/-- The longest path, in bytes. -/
def longestPath : Nat := 4095

/-- Join a directory and the name of a file in it. -/
def joinPath (directory name : String) : String :=
  if directory.toList.getLast? = some '/' ∨ directory = "" then directory ++ name
  else directory ++ "/" ++ name

namespace FileTree

/-- The entries of an anchor. -/
def entriesAt (tree : FileTree) : Anchor → List (String × FileNode)
  | .working => tree.entries
  | anchor => (tree.outside.lookup anchor).getD []

/-- The node at a place. -/
def node? (tree : FileTree) (place : Place) : Option FileNode :=
  (FileNode.directory (tree.entriesAt place.anchor)).below? place.names.reverse

/-- Follow the parts of a path from a place. -/
def follow (tree : FileTree) (place : Place) : List String → Except FileRefusal Place
  | [] => .ok place
  | part :: parts =>
    match tree.node? place with
    | none => .error .noEntry
    | some (.file _) => .error .notDirectory
    | some (.directory entries) =>
      if part = "" ∨ part = "." then follow tree place parts
      else if part = ".." then follow tree place.parent parts
      else if longestName < part.utf8ByteSize then .error .nameTooLong
      else if (entries.lookup part).isSome then follow tree (place.child part) parts
      else .error .noEntry

/-- Where a path starts from. -/
def startOf (path : String) : Place :=
  if path.toList.head? = some '/' then { anchor := .root } else {}

/-- The place that a path names. -/
def locate (tree : FileTree) (path : String) : Except FileRefusal Place :=
  if path = "" then .error .noEntry
  else if longestPath < path.utf8ByteSize then .error .nameTooLong
  else follow tree (startOf path) (pathParts path)

/-- What a path names, if anything; no path holds a null character. -/
def find? (tree : FileTree) (path : String) : Option FileNode :=
  if path.toList.contains '\x00' then none
  else
    match tree.locate path with
    | .ok place => tree.node? place
    | .error _ => none

/-- Whether a path names a directory. -/
def isDirectory (tree : FileTree) (path : String) : Bool :=
  match tree.find? path with
  | some (.directory _) => true
  | _ => false

/-- Whether a path names a file. -/
def isFile (tree : FileTree) (path : String) : Bool :=
  match tree.find? path with
  | some (.file _) => true
  | _ => false

/-- Whether a path names anything. -/
def exists? (tree : FileTree) (path : String) : Bool := (tree.find? path).isSome

/-- The names in a directory, in the order of their characters. -/
def names (tree : FileTree) (path : String) : List String :=
  match tree.find? path with
  | some node => (node.entries.map Prod.fst).mergeSort fun a b => decide (a ≤ b)
  | none => []

/-- The text of a file, with line feeds for all line ends. -/
def read (tree : FileTree) (path : String) : Except Fault String :=
  match tree.locate path with
  | .error refusal => .error (.file ⟨refusal, path⟩)
  | .ok place =>
    match tree.node? place with
    | some (.file (.text s)) => .ok (Text.normalizeNewlines s)
    | some (.file (.bytes _)) => .error (.misuse .notText)
    | some (.directory _) => .error (.file ⟨.isDirectory, path⟩)
    | none => .error (.file ⟨.noEntry, path⟩)

end FileTree

mutual

/-- The files at or below a node that has the path `path`. -/
def FileNode.files (path : String) : FileNode → List (String × FileContent)
  | .file content => [(path, content)]
  | .directory entries => filesOfEntries (path ++ "/") entries

/-- The files of the entries of a directory; their paths start with `start`. -/
def filesOfEntries (start : String) : List (String × FileNode) → List (String × FileContent)
  | [] => []
  | (name, node) :: rest => node.files (start ++ name) ++ filesOfEntries start rest

end

/-- All files below the working directory in the order of their paths. -/
def FileTree.files (tree : FileTree) : List (String × FileContent) :=
  (filesOfEntries "" tree.entries).mergeSort fun a b => decide (a.1 ≤ b.1)

end SchemaCompiler
