import SchemaCompiler.Fault
import SchemaCompiler.Text.Blank
import SchemaCompiler.Text.Digit
import SchemaCompiler.Value.Basic

/-!
# Literals

How a value is written in SQL: as a text literal between single quotes, a quote inside it twice
(`literal`), or as the default of a column (`defaultText`), where numbers, truth values and
expressions stand as they are.  A whole number that stands as it is must not have too many digits
(`wholeText`).
-/

namespace SchemaCompiler.Sql

/-- The characters of a text literal between its quotes. -/
def doubleQuotes (cs : List Char) : List Char :=
  cs.flatMap fun c => if c = '\'' then ['\'', '\''] else [c]

/-- A text literal. -/
def textLiteral (s : String) : String :=
  "'" ++ String.ofList (doubleQuotes s.toList) ++ "'"

/-- The text of a value as a literal. -/
def literal (v : Value) : String := textLiteral v.toText

/-- Whether a text is taken for an expression: a call without arguments, or anything with a
parenthesis or a blank. -/
def isExpression (cs : List Char) : Bool :=
  cs.any fun c => c == '(' || c == ')' || Text.isBlank c

/-- The text of a whole number, unless it has too many digits. -/
def wholeText (n : Int) : Except Fault String :=
  if (Nat.toDigits 10 n.natAbs).length ≤ Text.maxDigits then .ok (toString n)
  else .error (.misuse .wrongValue)

/-- The default of a column. -/
def defaultText : Value → Except Fault String
  | .bool b => .ok (if b then "true" else "false")
  | .int n => wholeText n
  | .float x => .ok x.toText
  | .decimal d => .ok d.toText
  | .text s => .ok (if isExpression s.toList then s else textLiteral s)
  | v => .ok (literal v)

end SchemaCompiler.Sql
