import SchemaCompiler.Number.Binary64

/-!
# Shortest decimal text of a double-precision number

A finite number is written with the fewest significant digits that read back as the same number;
of several such, the nearest, and of two equally near the one with an even last digit.  The point
is placed among the digits for values from 0.0001 up to 10¹⁶, outside that range an exponent of at
least two digits follows.
-/

namespace SchemaCompiler.Number.Binary64

/-- The decimal magnitude of `num / den > 0`: the least `p` with `num / den < 10 ^ p`. -/
def decimalMagnitude (num den : Nat) : Int :=
  if den ≤ num then (Nat.toDigits 10 (num / den)).length
  else
    let inverse := (den + num - 1) / num - 1
    1 - (Nat.toDigits 10 inverse).length

/-- Digits and power of ten of the grid point next to `num / den`, among those with `count`
significant digits, that reads back as `x`. -/
def candidate? (x : Binary64) (num den count : Nat) : Option (Nat × Int) :=
  let unit := decimalMagnitude num den - count
  let (n, d) := dividedByPower 10 num den unit
  let below := n / d
  let reads (digits : Nat) : Bool := ofDecimal false digits unit == x
  let nearer := roundHalfEven n d
  let other := if nearer = below then below + 1 else below
  if reads nearer then some (nearer, unit)
  else if reads other then some (other, unit)
  else none

/-- The fewest digits, and their power of ten, that read back as the positive number
`significand · 2 ^ exponent`. -/
def shortest (significand : Nat) (exponent : Int) : Nat × Int :=
  let x := finite false significand exponent
  let (num, den) := dividedByPower 2 significand 1 (-exponent)
  match (List.range 17).findSome? fun count => candidate? x num den (count + 1) with
  | some found => found
  | none => (significand, exponent)

/-- A digit text without the zeros at its end. -/
def dropTrailingZeros (digits : List Char) : List Char :=
  (digits.reverse.dropWhile (· == '0')).reverse

/-- The digits `ds` with the point after the first `place` of them. -/
def placePoint (ds : List Char) (place : Int) : List Char :=
  if place ≤ 0 then "0.".toList ++ List.replicate (-place).toNat '0' ++ ds
  else if (ds.length : Int) ≤ place then
    ds ++ List.replicate (place - ds.length).toNat '0' ++ ".0".toList
  else ds.take place.toNat ++ '.' :: ds.drop place.toNat

/-- The digits `ds` in exponent notation, for a point after the first `place` of them. -/
def withExponent (ds : List Char) (place : Int) : List Char :=
  let e := place - 1
  let size := Nat.toDigits 10 e.natAbs
  let fraction := if ds.length ≤ 1 then [] else '.' :: ds.drop 1
  ds.take 1 ++ fraction ++ ['e', if e < 0 then '-' else '+'] ++
    List.replicate (2 - size.length) '0' ++ size

/-- The text of a number. -/
def toText : Binary64 → String
  | .nan _ => "nan"
  | .infinite negative => if negative then "-inf" else "inf"
  | .finite negative m e =>
    let digits :=
      if m = 0 then "0.0".toList
      else
        let (n, unit) := shortest m e
        let all := Nat.toDigits 10 n
        let place := all.length + unit
        let ds := dropTrailingZeros all
        if -4 < place ∧ place ≤ 16 then placePoint ds place else withExponent ds place
    String.ofList (if negative then '-' :: digits else digits)

end SchemaCompiler.Number.Binary64
