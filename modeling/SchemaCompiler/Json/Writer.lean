import SchemaCompiler.Value.Basic

/-!
# JSON output

Lists of texts as JSON, in ASCII: a character outside of it is written as one escaped UTF-16 unit
or, beyond the basic plane, as two.  `writeTexts` puts every text on a line of its own.
-/

namespace SchemaCompiler.Json

/-- A UTF-16 unit as an escape. -/
def unitEscape (unit : Nat) : List Char := '\\' :: 'u' :: Text.hexDigits 4 unit

/-- A character as escapes. -/
def charEscape (c : Char) : List Char :=
  let n := c.toNat
  if n < 0x10000 then unitEscape n
  else
    unitEscape (0xD800 + (n - 0x10000) / 0x400) ++ unitEscape (0xDC00 + (n - 0x10000) % 0x400)

/-- A character inside a JSON string. -/
def stringChar (c : Char) : List Char :=
  if c = '"' ∨ c = '\\' then ['\\', c]
  else if c = '\n' then ['\\', 'n']
  else if c = '\r' then ['\\', 'r']
  else if c = '\t' then ['\\', 't']
  else if c = '\x08' then ['\\', 'b']
  else if c = '\x0c' then ['\\', 'f']
  else if ' ' ≤ c ∧ c ≤ '~' then [c]
  else charEscape c

/-- A text as a JSON string. -/
def writeText (s : String) : String :=
  String.ofList ('"' :: s.toList.flatMap stringChar ++ ['"'])

/-- Texts as a JSON list, one on a line. -/
def writeTexts (texts : List String) : String :=
  match texts with
  | [] => "[]"
  | texts =>
    "[\n" ++ Text.joinWith ",\n" (texts.map fun s => "  " ++ writeText s) ++ "\n]"

end SchemaCompiler.Json
