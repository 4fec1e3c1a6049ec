import SchemaCompiler.Number.Quantity

/-!
# Double-precision numbers

A finite number is `± significand · 2 ^ exponent` with a significand of at most 53 bits and an
exponent from -1074 to 971; the significand of a number with a larger exponent than -1074 has
exactly 53 bits, so each number has one form.

* `Binary64.ofRatio` — the number nearest to a quotient, a tie going to the even significand;
* `Binary64.ofDecimal` — the same for digits and a power of ten, without raising ten to an
  exponent that is certain to leave the range;
* `Binary64.scale`, `Binary64.addHalf`, `Binary64.truncate` — what rounding a scaled number to a
  whole one takes.
-/

namespace SchemaCompiler.Number

/-- A double-precision number.  A not-a-number is equal to nothing but itself, so each carries
a tag that tells it from the others. -/
inductive Binary64 where
  | finite (negative : Bool) (significand : Nat) (exponent : Int)
  | infinite (negative : Bool)
  | nan (tag : Nat)
  deriving DecidableEq, Repr

namespace Binary64

/-- `num / den` as a whole number, to the nearest one and of two to the even one. -/
def roundHalfEven (num den : Nat) : Nat :=
  let q := num / den
  let r := num % den
  if 2 * r < den then q
  else if den < 2 * r then q + 1
  else if q % 2 = 0 then q
  else q + 1

/-- Numerator and denominator of `num / den / base ^ e`. -/
def dividedByPower (base num den : Nat) (e : Int) : Nat × Nat :=
  if 0 ≤ e then (num, den * base.pow e.toNat) else (num * base.pow (-e).toNat, den)

/-- The exponent of the grid on which `num / den` has 53 significant bits, or the least one. -/
def gridExponent (num den : Nat) : Int :=
  let coarse : Int := num.log2 - den.log2 - 52
  let (n, d) := dividedByPower 2 num den coarse
  let exact := if n / d < Nat.pow 2 52 then coarse - 1 else coarse
  if exact < -1074 then -1074 else exact

/-- The number nearest to `± num / den`. -/
def ofRatio (negative : Bool) (num den : Nat) : Binary64 :=
  if num = 0 then .finite negative 0 (-1074)
  else
    let e := gridExponent num den
    let (n, d) := dividedByPower 2 num den e
    let m := roundHalfEven n d
    let (m, e) := if m = Nat.pow 2 53 then (Nat.pow 2 52, e + 1) else (m, e)
    if 971 < e then .infinite negative else .finite negative m e

/-- The number nearest to `± digits · 10 ^ exponent`. -/
def ofDecimal (negative : Bool) (digits : Nat) (exponent : Int) : Binary64 :=
  let magnitude : Int := exponent + (Nat.toDigits 10 digits).length
  if digits = 0 ∨ magnitude < -330 then .finite negative 0 (-1074)
  else if 310 < magnitude then .infinite negative
  else
    let (num, den) := dividedByPower 10 digits 1 (-exponent)
    ofRatio negative num den

/-- The number times `2 ^ k`. -/
def scale (k : Nat) : Binary64 → Binary64
  | .finite negative m e =>
    let (num, den) := dividedByPower 2 m 1 (-(e + k))
    ofRatio negative num den
  | x => x

/-- A number that is not negative, plus one half. -/
def addHalf : Binary64 → Binary64
  | .finite _ m e =>
    let (num, den) := dividedByPower 2 m 1 (-e)
    ofRatio false (2 * num + den) (2 * den)
  | x => x

/-- The whole part of a number that is not negative; none for an infinite one. -/
def truncate : Binary64 → Option Nat
  | .finite _ m e =>
    let (num, den) := dividedByPower 2 m 1 (-e)
    some (num / den)
  | _ => none

/-- Whether the number is zero, of either sign. -/
def isZero : Binary64 → Bool
  | .finite _ m _ => m == 0
  | _ => false

/-- The exact value of a finite number. -/
def quantity? : Binary64 → Option Quantity
  | .finite negative m e => some (.of negative m e 0)
  | _ => none

end Binary64
end SchemaCompiler.Number
