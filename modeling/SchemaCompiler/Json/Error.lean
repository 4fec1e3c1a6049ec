import SchemaCompiler.Text.Line

/-!
# JSON errors

Why a text is not JSON, and where.  A position counts characters from 0; the message also gives
the line and the column, which count from 1.
-/

namespace SchemaCompiler.Json

/-- What is wrong at the position of an error. -/
inductive Problem where
  | byteOrderMark
  | expectedValue
  | expectedName
  | expectedColon
  | expectedComma
  | extraData
  | unterminatedString
  | controlCharacter
  | invalidEscape
  | invalidUnicodeEscape
  deriving DecidableEq, Repr

/-- The wording of a problem. -/
def Problem.message : Problem → String
  | .byteOrderMark => "Unexpected UTF-8 BOM (decode using utf-8-sig)"
  | .expectedValue => "Expecting value"
  | .expectedName => "Expecting property name enclosed in double quotes"
  | .expectedColon => "Expecting ':' delimiter"
  | .expectedComma => "Expecting ',' delimiter"
  | .extraData => "Extra data"
  | .unterminatedString => "Unterminated string starting at"
  | .controlCharacter => "Invalid control character at"
  | .invalidEscape => "Invalid \\escape"
  | .invalidUnicodeEscape => "Invalid \\uXXXX escape"

/-- A problem at a position of a text. -/
structure Error where
  problem : Problem
  position : Nat
  line : Nat
  column : Nat
  deriving DecidableEq, Repr

/-- The error for a problem at a position of the text `cs`. -/
def Error.at (cs : List Char) (problem : Problem) (position : Nat) : Error :=
  let before := cs.take position
  let sinceBreak := before.reverse.takeWhile (· != '\n')
  { problem, position, line := before.count '\n' + 1, column := sinceBreak.length + 1 }

/-- The wording of an error. -/
def Error.message (e : Error) : String :=
  e.problem.message ++ ": line " ++ toString e.line ++ " column " ++ toString e.column ++
    " (char " ++ toString e.position ++ ")"

end SchemaCompiler.Json
