import SchemaCompiler.Number.Quantity
import SchemaCompiler.Text.Blank
import SchemaCompiler.Text.Digit

/-!
# Decimal numbers

Decimal numbers of any length, which keep the zeros they were written with: `1.50` and `1.5` are
equal and yet have different texts.  `ofText?` reads one and `toText` writes it, in scientific
notation when the exponent is positive or the value is below a millionth.
-/

namespace SchemaCompiler.Number

/-- A decimal number: `± coefficient · 10 ^ exponent`, an infinity, or a not-a-number (quiet or
signalling, with the digits of its diagnostic), which carries a tag that tells it from others. -/
inductive Decimal where
  | finite (negative : Bool) (coefficient : Nat) (exponent : Int)
  | infinite (negative : Bool)
  | nan (negative signaling : Bool) (diagnostic : String) (tag : Nat)
  deriving DecidableEq, Repr

namespace Decimal

/-- Whether the number is zero. -/
def isZero : Decimal → Bool
  | .finite _ c _ => c == 0
  | _ => false

/-- The exact value of a finite number. -/
def quantity? : Decimal → Option Quantity
  | .finite negative c e => some (.of negative c e e)
  | _ => none

/-- Digits, point and exponent of `coefficient · 10 ^ exponent`. -/
def finiteText (coefficient : Nat) (exponent : Int) : List Char :=
  let ds := Nat.toDigits 10 coefficient
  let left : Int := exponent + ds.length
  let place : Int := if exponent ≤ 0 ∧ -6 < left then left else 1
  let shown :=
    if place ≤ 0 then "0.".toList ++ List.replicate (-place).toNat '0' ++ ds
    else if (ds.length : Int) ≤ place then ds ++ List.replicate (place - ds.length).toNat '0'
    else ds.take place.toNat ++ '.' :: ds.drop place.toNat
  let e := left - place
  if e = 0 then shown
  else shown ++ ['E', if e < 0 then '-' else '+'] ++ Nat.toDigits 10 e.natAbs

/-- The text of a number. -/
def toText : Decimal → String
  | .finite negative c e =>
    String.ofList (if negative then '-' :: finiteText c e else finiteText c e)
  | .infinite negative => if negative then "-Infinity" else "Infinity"
  | .nan negative signaling diagnostic _ =>
    (if negative then "-" else "") ++ (if signaling then "sNaN" else "NaN") ++ diagnostic

/-- The optional sign at the front, and the rest. -/
def readSign : List Char → Bool × List Char
  | '-' :: cs => (true, cs)
  | '+' :: cs => (false, cs)
  | cs => (false, cs)

/-- A whole number with an optional sign, and nothing after it. -/
def readInt? (cs : List Char) : Option Int :=
  let (negative, ds) := readSign cs
  if ds.isEmpty || !ds.all Text.isDigit then none
  else
    let n : Int := Text.numberOf ds
    some (if negative then -n else n)

/-- Digits, an optional point with digits, and an optional exponent. -/
def readFinite? (negative : Bool) (cs : List Char) : Option Decimal :=
  let whole := cs.takeWhile Text.isDigit
  let rest := cs.dropWhile Text.isDigit
  let (fraction, rest) :=
    match rest with
    | '.' :: r => (r.takeWhile Text.isDigit, r.dropWhile Text.isDigit)
    | r => ([], r)
  if whole.isEmpty && fraction.isEmpty then none
  else
    let coefficient := Text.numberOf (whole ++ fraction)
    let shift : Int := -fraction.length
    match rest with
    | [] => some (.finite negative coefficient shift)
    | 'e' :: r | 'E' :: r => (readInt? r).map fun e => .finite negative coefficient (e + shift)
    | _ => none

/-- The digits of a diagnostic in their usual form: in ASCII, without zeros at the front. -/
def diagnosticOf (digits : List Char) : String :=
  match Text.numberOf digits with
  | 0 => ""
  | n => String.ofList (Nat.toDigits 10 n)

/-- Read a number; a not-a-number gets the tag `tag`. -/
def ofText? (tag : Nat) (s : String) : Option Decimal :=
  let (negative, cs) := readSign (Text.stripWhere Text.isBlank s.toList |>.filter (· != '_'))
  let word := cs.map Char.toLower
  if word = "inf".toList ∨ word = "infinity".toList then some (.infinite negative)
  else if word.take 3 = "nan".toList ∧ (word.drop 3).all Text.isDigit then
    some (.nan negative false (diagnosticOf (word.drop 3)) tag)
  else if word.take 4 = "snan".toList ∧ (word.drop 4).all Text.isDigit then
    some (.nan negative true (diagnosticOf (word.drop 4)) tag)
  else readFinite? negative cs

end Decimal
end SchemaCompiler.Number
