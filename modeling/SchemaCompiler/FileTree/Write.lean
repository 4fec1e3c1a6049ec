import SchemaCompiler.FileTree.Basic

/-!
# Writing to file trees

Making directories and writing files.  Every operation gives the tree as it is afterwards, also
when it fails: directories that were made before the failure stay.
-/

namespace SchemaCompiler

/-- Put an entry into a directory, in the place of one of the same name or at the end. -/
def putEntry (name : String) (node : FileNode) :
    List (String × FileNode) → List (String × FileNode)
  | [] => [(name, node)]
  | (n, old) :: rest => if n = name then (n, node) :: rest else (n, old) :: putEntry name node rest

/-- Put a node where a list of names leads, if all but the last name lead to directories. -/
def putBelow (node : FileNode) : List String → List (String × FileNode) → List (String × FileNode)
  | [], entries => entries
  | [name], entries => putEntry name node entries
  | name :: names, entries =>
    match entries.lookup name with
    | some (.directory inner) => putEntry name (.directory (putBelow node names inner)) entries
    | _ => entries

namespace FileTree

/-- The tree with a node at a place. -/
def put (tree : FileTree) (place : Place) (node : FileNode) : FileTree :=
  let entries := putBelow node place.names.reverse (tree.entriesAt place.anchor)
  match place.anchor with
  | .working => { tree with entries }
  | anchor =>
    { tree with outside := (anchor, entries) :: tree.outside.filter fun o => o.1 ≠ anchor }

/-- The end of an operation that may have changed the tree. -/
abbrev Result := FileTree × Except Fault Unit

/-- The operation is refused. -/
def refused (tree : FileTree) (refusal : FileRefusal) (path : String) : Result :=
  (tree, .error (.file ⟨refusal, path⟩))

/-- A path without the slashes at its end. -/
def trimSlashes (path : String) : String :=
  String.ofList ((path.toList.reverse.dropWhile (· == '/')).reverse)

/-- Where a path leads without its last part, and that part. -/
def locateParent (tree : FileTree) (path : String) : Except FileRefusal (Place × String) := do
  let parts := pathParts path
  if longestPath < path.utf8ByteSize then .error .nameTooLong
  else
    let last := parts.getLastD ""
    let place ← tree.follow (startOf path) parts.dropLast
    match tree.node? place with
    | some (.directory _) =>
      if longestName < last.utf8ByteSize then .error .nameTooLong else return (place, last)
    | some (.file _) => .error .notDirectory
    | none => .error .noEntry

/-- Whether the last part of a path stands for a place that exists already: the one that the parts
before it lead to, the one above it, or the root. -/
def isDots (part : String) : Bool := part = "" || part = "." || part = ".."

/-- Make a directory. -/
def makeDirectory (tree : FileTree) (path : String) : Result :=
  if path.toList.contains '\x00' then (tree, .error (.misuse .wrongValue))
  else if path = "" then tree.refused .noEntry path
  else
    match tree.locateParent (trimSlashes path) with
    | .error refusal => tree.refused refusal path
    | .ok (place, name) =>
      if isDots name then
        match tree.locate path with
        | .ok _ => tree.refused .exists path
        | .error refusal => tree.refused refusal path
      else
        match tree.node? (place.child name) with
        | some _ => tree.refused .exists path
        | none => (tree.put (place.child name) (.directory []), .ok ())

/-- The part of a path before its last slash, and the part after it. -/
def splitPath (path : String) : String × String :=
  let reversed := path.toList.reverse
  let tail := (reversed.takeWhile (· != '/')).reverse
  let head := (reversed.dropWhile (· != '/')).reverse
  (if head.all (· == '/') then String.ofList head else trimSlashes (String.ofList head),
    String.ofList tail)

/-- Make a directory; one that is there already is left as it is. -/
def ensureDirectory (tree : FileTree) (path : String) : Result :=
  match tree.makeDirectory path with
  | (tree, .error (.file e)) =>
    if tree.isDirectory path then (tree, .ok ()) else (tree, .error (.file e))
  | result => result

/-- Make a directory, as `makeDirectories` does, with at most `fuel` directories above it. -/
def makeDirectoriesUpTo : Nat → FileTree → String → Result
  | 0, tree, path => tree.makeDirectory path
  | fuel + 1, tree, path =>
    let (head, tail) := splitPath path
    let (head, tail) := if tail = "" then splitPath head else (head, tail)
    if head ≠ "" ∧ tail ≠ "" ∧ !tree.exists? head then
      match makeDirectoriesUpTo fuel tree head with
      | (tree, .ok ()) => if tail = "." then (tree, .ok ()) else tree.ensureDirectory path
      | (tree, .error (.file ⟨.exists, _⟩)) =>
        if tail = "." then (tree, .ok ()) else tree.ensureDirectory path
      | failed => failed
    else tree.ensureDirectory path

/-- Make a directory and all directories above it that are missing; one that is there already is
left as it is. -/
def makeDirectories (tree : FileTree) (path : String) : Result :=
  makeDirectoriesUpTo path.length tree path

/-- Write to a file, which is made if there is none. -/
def write (tree : FileTree) (path : String) (content : FileContent) : Result :=
  if path.toList.contains '\x00' then (tree, .error (.misuse .wrongValue))
  else if path = "" then tree.refused .noEntry path
  else
    match tree.locateParent (trimSlashes path) with
    | .error refusal => tree.refused refusal path
    | .ok (place, name) =>
      if isDots name then
        match tree.locate path with
        | .ok _ => tree.refused .isDirectory path
        | .error refusal => tree.refused refusal path
      else if path.toList.getLast? = some '/' then tree.refused .isDirectory path
      else
        match tree.node? (place.child name) with
        | some (.directory _) => tree.refused .isDirectory path
        | _ => (tree.put (place.child name) (.file content), .ok ())

end FileTree
end SchemaCompiler
