import SchemaCompiler.Text.Line

/-!
# Preview of statements

The statements of a migration at a glance: each with its number and the start of its first line.
Of more than ten statements the first five and the last five are shown, with a line between them
that says how many are left out.
-/

namespace SchemaCompiler.CommandLine

/-- A line of a preview. -/
inductive PreviewLine where
  | statement (number : Nat) (headline : String)
  | gap (count : Nat)
  deriving DecidableEq, Repr

/-- The text of a line. -/
def PreviewLine.text : PreviewLine → String
  | .statement number headline => toString number ++ ". " ++ headline
  | .gap count => "... (" ++ toString count ++ " more statements) ..."

/-- How many characters of a line are shown. -/
def headlineWidth : Nat := 100

/-- The first line of a statement, cut if it is too long. -/
def headline (statement : String) : String :=
  let line := (Text.firstLine statement).toList
  if headlineWidth < line.length then String.ofList (line.take headlineWidth) ++ "..."
  else String.ofList line

/-- How many statements are shown on either side of a gap. -/
def shownAtEnds : Nat := 5

/-- The statements that are shown, each with its number. -/
def shown (statements : List String) : List (String × Nat) :=
  let count := statements.length
  if count ≤ 2 * shownAtEnds then statements.zipIdx 1
  else (statements.take shownAtEnds).zipIdx 1 ++
    (statements.drop (count - shownAtEnds)).zipIdx (count - shownAtEnds + 1)

/-- The lines for one of `count` statements: its own line, and behind the last one in front of a gap
the line that says how many are left out. -/
def linesFor (count : Nat) (s : String × Nat) : List PreviewLine :=
  .statement s.2 (headline s.1) ::
    if 2 * shownAtEnds < count ∧ s.2 = shownAtEnds then [.gap (count - 2 * shownAtEnds)] else []

/-- The preview of statements. -/
def preview (statements : List String) : List PreviewLine :=
  (shown statements).flatMap (linesFor statements.length)

/-- The line above and below a preview. -/
def ruler : String := String.ofList (List.replicate 50 '=')

/-- All lines of a preview under a title. -/
def previewText (title : String) (statements : List String) : List String :=
  (title ++ ":") :: ruler :: (preview statements).map PreviewLine.text ++ [ruler]

end SchemaCompiler.CommandLine
