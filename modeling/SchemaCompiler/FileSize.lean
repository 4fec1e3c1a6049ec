import SchemaCompiler.Number.Binary64
import SchemaCompiler.Value.Reading

/-!
# File sizes

A size is a count of bytes or a text such as `5MB` or `1.5 gb`: a number, optional blanks and an
optional unit, in any letter case.  Units are powers of 1024.  A text is computed in double
precision and rounded to the nearest byte, a half upwards.

* `FileSize.readText` — the three parts of a text, if it has the form;
* `FileSize.parse` — the size that a value stands for, if any; it faults where the size is too
  large for double precision, and on a unit written with the Kelvin sign, which is the letter K in
  disguise when the form is checked and no unit when the size is computed.
-/

namespace SchemaCompiler.FileSize

open Number Text

/-- The parts of a size: the digits before and after the point, and the unit as written. -/
structure Parts where
  whole : List Char
  fraction : List Char
  unit : List Char
  deriving DecidableEq, Repr

/-- The letters that a character of a unit is taken for. -/
def unitLetter (c : Char) : Char := if c = '\u212a' then 'K' else c.toUpper

/-- The units: their names and how often 1024 goes into them as a factor. -/
def units : List (List Char × Nat) :=
  [(['B'], 0), (['K', 'B'], 1), (['M', 'B'], 2), (['G', 'B'], 3), (['T', 'B'], 4)]

/-- Whether a text is a unit in any letter case. -/
def isUnit (cs : List Char) : Bool := units.any fun u => u.1 == cs.map unitLetter

/-- Split a text without blanks at its ends into number and unit. -/
def readText (cs : List Char) : Option Parts :=
  let whole := cs.takeWhile isDigit
  let rest := cs.dropWhile isDigit
  let (fraction, rest) :=
    match rest with
    | '.' :: r =>
      if (r.takeWhile isDigit).isEmpty then ([], rest)
      else (r.takeWhile isDigit, r.dropWhile isDigit)
    | _ => ([], rest)
  let unit := rest.dropWhile isBlank
  if whole.isEmpty then none
  else if unit.isEmpty || isUnit unit then some ⟨whole, fraction, unit⟩
  else none

/-- The factor of a unit as a power of two; no unit means bytes. -/
def unitShift (unit : List Char) : Except Fault Nat :=
  match units.lookup (if unit.isEmpty then ['B'] else unit.map Char.toUpper) with
  | some power => .ok (10 * power)
  | none => .error (.misuse .noSuchEntry)

/-- The size in bytes of a number with a unit. -/
def Parts.bytes (p : Parts) : Except Fault Nat := do
  let shift ← unitShift p.unit
  let number := Binary64.ofDecimal false (numberOf (p.whole ++ p.fraction)) (-p.fraction.length)
  match (number.scale shift).addHalf.truncate with
  | some n => .ok n
  | none => .error (.misuse .outOfRange)

/-- The size in bytes that a value stands for, or nothing if it stands for none. -/
def parse : Value → Except Fault (Option Int)
  | .int n => .ok (some n)
  | .text s =>
    match readText (stripWhere isBlank s.toList) with
    | some parts => do return some (← parts.bytes)
    | none => .ok none
  | _ => .ok none

end SchemaCompiler.FileSize
