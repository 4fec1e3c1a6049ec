/-!
# Exact quantities

The value of a decimal or binary number, in a normal form: a whole number free of the factors 2
and 5, times powers of 2 and of 5.  Two numbers, however they are written, are equal when their
quantities are the same.
-/

namespace SchemaCompiler.Number

/-- The number `± core · 2 ^ twos · 5 ^ fives`, where `core` has neither factor; nothing is
`+ 0 · 2 ^ 0 · 5 ^ 0`. -/
structure Quantity where
  negative : Bool
  core : Nat
  twos : Int
  fives : Int
  deriving DecidableEq, Repr

/-- Divide `n` by `p` as often as it goes, at most `fuel` times: what is left and how often. -/
def divideOut (p : Nat) : Nat → Nat → Nat × Nat
  | 0, n => (n, 0)
  | fuel + 1, n =>
    if n % p = 0 then
      let (rest, count) := divideOut p fuel (n / p)
      (rest, count + 1)
    else (n, 0)

/-- The quantity `± n · 2 ^ twos · 5 ^ fives`. -/
def Quantity.of (negative : Bool) (n : Nat) (twos fives : Int) : Quantity :=
  if n = 0 then ⟨false, 0, 0, 0⟩
  else
    let fuel := n.log2 + 1
    let (odd, moreTwos) := divideOut 2 fuel n
    let (core, moreFives) := divideOut 5 fuel odd
    ⟨negative, core, twos + moreTwos, fives + moreFives⟩

/-- The quantity of a whole number. -/
def Quantity.ofInt (n : Int) : Quantity := .of (n < 0) n.natAbs 0 0

end SchemaCompiler.Number
