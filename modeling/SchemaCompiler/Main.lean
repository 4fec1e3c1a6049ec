import SchemaCompiler.CommandLine.Run
import Std.Time.DateTime.Timestamp

/-!
# The program

The thin layer between the program and the machine: it reads the files that a command line names,
the environment and the clock, lets `CommandLine.execute` do the work, and writes what has changed.
What it cannot read is taken to be missing.
-/

namespace SchemaCompiler.Main

/-- The directories that lead to an anchor, each with a slash. -/
def anchorPath : Anchor → String
  | .working => ""
  | .above levels => String.join (List.replicate (levels + 1) "../")
  | .root => "/"

/-- A path that leads to a place. -/
def pathTo (place : Place) : String :=
  let path := anchorPath place.anchor ++ Text.joinWith "/" place.names.reverse
  if path = "" then "." else path

/-- What stands at a path: a file with its content, or a directory with the files in it. -/
def capture (path : String) : IO (Option FileNode) := do
  let content (path : String) : IO FileNode := do
    let bytes ← IO.FS.readBinFile path
    match String.fromUTF8? bytes with
    | some s => return .file (.text s)
    | none => return .file (.bytes bytes.toList)
  try
    let place ← IO.FS.realPath path
    match (← place.metadata).type with
    | .file => return some (← content path)
    | .dir =>
      let mut entries := #[]
      for entry in ← place.readDir do
        match (← entry.path.metadata).type with
        | .file => entries := entries.push (entry.fileName, ← content entry.path.toString)
        | .dir => entries := entries.push (entry.fileName, FileNode.directory [])
        | _ => pure ()
      return some (.directory entries.toList)
    | _ => return none
  catch _ => return none

/-- Whether there is a directory at a path. -/
def isDirectory (path : String) : IO Bool := do
  try
    return (← (← IO.FS.realPath path).metadata).type == .dir
  catch _ => return false

/-- A tree with a node at a place, which may be an anchor. -/
def install (tree : FileTree) (place : Place) (node : FileNode) : FileTree :=
  if place.names.isEmpty then
    node.entries.foldl (fun tree entry => tree.put (place.child entry.1) entry.2) tree
  else tree.put place node

/-- A tree with what stands at a path, and with every directory that leads there. -/
def captureAlong (tree : FileTree) (path : String) : IO FileTree := do
  let mut tree := tree
  let mut place := FileTree.startOf path
  for part in pathParts path do
    if (tree.node? place).isNone && (← isDirectory (pathTo place)) then
      tree := tree.put place (.directory [])
    if part = ".." then place := place.parent
    else if part ≠ "" && part ≠ "." then place := place.child part
  match ← capture (pathTo place) with
  | some node => return install tree place node
  | none => return tree

/-- The tree that a command line may be about: all its words are tried as paths, shorter ones
first. -/
def captureWords (settings : Settings) (words : List String) : IO FileTree := do
  let values := words.flatMap fun word =>
    [word, String.ofList ((word.toList.dropWhile (· != '=')).drop 1)]
  let paths := (settings.migrationsDir :: values).mergeSort fun a b =>
    decide ((pathParts a).length ≤ (pathParts b).length)
  let mut tree : FileTree := {}
  for path in paths do
    if !path.isEmpty && !path.toList.contains '\x00' then tree ← captureAlong tree path
  return tree

/-- All files of a tree, also those outside of the working directory. -/
def allFiles (tree : FileTree) : List (String × FileContent) :=
  tree.files ++ tree.outside.flatMap fun (anchor, entries) =>
    filesOfEntries (anchorPath anchor) entries

/-- Write the files that are new or changed. -/
def store (before after : FileTree) : IO Unit := do
  let known := allFiles before
  for (path, content) in allFiles after do
    if known.lookup path ≠ some content then
      let directory := (FileTree.splitPath path).1
      unless directory.isEmpty do IO.FS.createDirAll directory
      match content with
      | .text s => IO.FS.writeFile path s
      | .bytes b => IO.FS.writeBinFile path ⟨b.toArray⟩

/-- The time by the clock of the machine. -/
def now : IO Time := do
  let seconds := (← Std.Time.Timestamp.now).toSecondsSinceUnixEpoch.val
  return Time.ofSeconds (Time.daysBeforeYear 1970 * 86400 + seconds.toNat) 0

end SchemaCompiler.Main

open SchemaCompiler in
/-- Run the program. -/
def main (words : List String) : IO UInt32 := do
  let environment ← Settings.names.mapM fun name => return (name, ← IO.getEnv name)
  let settings := Settings.ofEnvironment fun name => (environment.lookup name).join
  let tree ← Main.captureWords settings words
  let after := CommandLine.execute { tree, settings, now := ← Main.now } words
  Main.store tree after.tree
  IO.print after.stdout
  IO.eprint after.stderr
  match after.ending with
  | .ok exitCode => return exitCode.toUInt32
  | .error _ =>
    IO.eprintln "A value of the definition has a type that cannot be worked with."
    return 1
