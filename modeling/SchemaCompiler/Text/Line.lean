/-!
# Lines

A line ends at any of the eleven line breaks of the character database, a carriage return and
line feed counting as one.  `firstLine` is what stands before the first break.  Files are read
with every kind of line end turned into a line feed (`normalizeNewlines`).  `joinWith` puts a
separator between texts.
-/

namespace SchemaCompiler.Text

/-- Whether a character ends a line. -/
def isLineBreak (c : Char) : Bool :=
  let n := c.toNat
  (10 ≤ n && n ≤ 13) || (28 ≤ n && n ≤ 30) || n == 133 || n == 8232 || n == 8233

/-- What stands before the first line break. -/
def firstLine (s : String) : String :=
  String.ofList (s.toList.takeWhile fun c => !isLineBreak c)

/-- Carriage returns, alone or before a line feed, become line feeds. -/
def normalizeNewlineChars : List Char → List Char
  | [] => []
  | '\r' :: '\n' :: cs => '\n' :: normalizeNewlineChars cs
  | c :: cs => (if c = '\r' then '\n' else c) :: normalizeNewlineChars cs

/-- A text with line feeds for all line ends. -/
def normalizeNewlines (s : String) : String := String.ofList (normalizeNewlineChars s.toList)

/-- The texts in order with `separator` between any two of them. -/
def joinWith (separator : String) : List String → String
  | [] => ""
  | [s] => s
  | s :: t :: rest => s ++ separator ++ joinWith separator (t :: rest)

/-- The pieces of `cs` between the occurrences of `mark`; there is always at least one. -/
def splitAt (mark : Char) : List Char → List (List Char)
  | [] => [[]]
  | c :: cs =>
    if c = mark then [] :: splitAt mark cs
    else
      match splitAt mark cs with
      | [] => [[c]]
      | piece :: pieces => (c :: piece) :: pieces

/-- A text filled up with blanks on the right to at least `width` characters. -/
def padRight (width : Nat) (s : String) : String :=
  s ++ String.ofList (List.replicate (width - s.length) ' ')

/-- A number filled up with zeros on the left to at least `width` digits. -/
def padNumber (width n : Nat) : String :=
  let digits := Nat.toDigits 10 n
  String.ofList (List.replicate (width - digits.length) '0' ++ digits)

end SchemaCompiler.Text
