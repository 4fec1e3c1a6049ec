import SchemaCompiler.Fault
import SchemaCompiler.Value.Equality

/-!
# Reading values

How a definition is taken apart.  Each step says what it takes: a list of things may be written as
a list, a tuple, a text (its characters) or a mapping (its keys), and a setting can only be looked
up in a mapping.  What an operation cannot take is a `Misuse`.
-/

namespace SchemaCompiler.Value

/-- A text of one character. -/
def ofChar (c : Char) : Value := .text (String.ofList [c])

/-- The things that a value holds one after the other. -/
def items : Value → Except Fault (List Value)
  | .list vs => .ok vs
  | .tuple vs => .ok vs
  | .text s => .ok (s.toList.map ofChar)
  | .mapping entries => .ok (entries.map Prod.fst)
  | _ => .error (.misuse .wrongType)

/-- The characters of a text, where only a text will do. -/
def textOnly (misuse : Misuse) : Value → Except Fault String
  | .text s => .ok s
  | _ => .error (.misuse misuse)

/-- The setting under a key of a mapping, if it is there. -/
def setting? (key : String) : Value → Except Fault (Option Value)
  | .mapping entries => .ok (get?.find key entries)
  | _ => .error (.misuse .noSuchPart)

/-- The setting under a key of a mapping, or what stands for it. -/
def settingD (v : Value) (key : String) (default : Value) : Except Fault Value :=
  (setting? key v).map fun found => found.getD default

/-- Whether `part` occurs in `whole`. -/
def occursIn (part : List Char) : List Char → Bool
  | [] => part.isEmpty
  | c :: cs => part.isPrefixOf (c :: cs) || occursIn part cs

/-- Whether a value that holds things holds `key`: a mapping as a key, a list as an item and a text
as a part. -/
def holds (key : Value) : Value → Except Fault Bool
  | .mapping entries =>
    if isHashable key then .ok (entries.any fun e => same key e.1) else .error (.misuse .wrongType)
  | .list vs => .ok (vs.any (same key))
  | .tuple vs => .ok (vs.any (same key))
  | .text s =>
    match key with
    | .text part => .ok (occursIn part.toList s.toList)
    | _ => .error (.misuse .wrongType)
  | _ => .error (.misuse .wrongType)

/-- The place in a list that a key stands for, a negative one being counted from the end. -/
def place? : Value → Option Int
  | .int n => some n
  | .bool b => some (if b then 1 else 0)
  | _ => none

/-- The item of a list at the place that a key stands for. -/
def itemAt (key : Value) (vs : List Value) : Except Fault Value :=
  match place? key with
  | none => .error (.misuse .wrongType)
  | some n =>
    let fromStart := if n < 0 then n + vs.length else n
    match (if fromStart < 0 then none else vs[fromStart.toNat]?) with
    | some item => .ok item
    | none => .error (.misuse .noSuchPlace)

/-- What a mapping has under a key, or a list at a place. -/
def under (key : Value) : Value → Except Fault Value
  | .mapping entries =>
    match entries.find? fun e => same key e.1 with
    | some e => .ok e.2
    | none => .error (.misuse .noSuchEntry)
  | .list vs => itemAt key vs
  | .tuple vs => itemAt key vs
  | _ => .error (.misuse .wrongType)

/-- What a definition has to have under a key.  A definition that does not hold the key is first of
all one without it, even if it is a list or a text, which have nothing under most keys. -/
def requireUnder (v key : Value) (owner : String) : Except Fault Value := do
  let missing : Fault := .schema (.missing owner key.toText)
  if ← holds key v then
    match ← under key v with
    | .null => .error missing
    | found => .ok found
  else .error missing

/-- The value of a setting that a definition has to have. -/
def require (key owner : String) (v : Value) : Except Fault Value :=
  v.requireUnder (.text key) owner

/-- Insert under a key: an entry with the key keeps its place and its key and takes the value,
otherwise a new entry goes to the end. -/
def insertEntry (key value : Value) : List (Value × Value) → List (Value × Value)
  | [] => [(key, value)]
  | (k, v) :: es => if same k key then (k, value) :: es else (k, v) :: insertEntry key value es

/-- A key and its value, written as any two things. -/
def pair : Value → Except Fault (Value × Value)
  | v => do
    match ← items v with
    | [key, value] =>
      if isHashable key then .ok (key, value) else .error (.misuse .wrongType)
    | _ => .error (.misuse .wrongValue)

/-- The entries of a mapping, or of a list of pairs read as one. -/
def entries : Value → Except Fault (List (Value × Value))
  | .mapping es => .ok es
  | v => do
    let pairs ← (← items v).mapM pair
    .ok (pairs.foldl (fun es p => insertEntry p.1 p.2 es) [])

/-- Refuse the first name that occurs before.  The names are read one by one, and each has to be
able to serve as a key. -/
def checkDistinct (duplicate : Value → Fault) (seen : List Value) :
    List (Except Fault Value) → Except Fault Unit
  | [] => .ok ()
  | name :: names => do
    let name ← name
    if !isHashable name then .error (.misuse .wrongType)
    else if seen.any (same name) then .error (duplicate name)
    else checkDistinct duplicate (name :: seen) names

end SchemaCompiler.Value
