import SchemaCompiler.Value.Basic

/-!
# Equality of values

Two values are the same when nothing distinguishes them as names, keys or settings: numbers are
compared by value, whatever their form (`1`, `1.0` and `true` are the same), lists and tuples item
by item, mappings without regard to order, and everything else has to be of one type.

* `Value.same` — the equality that keys and settings are compared by;
* `Value.equal` — the same, except that a not-a-number is not even equal to itself;
* `Value.isHashable` — whether a value can serve as a key at all.
-/

namespace SchemaCompiler.Value

open Number

/-- The exact value of a finite number, a truth value counting as 0 or 1. -/
def quantity? : Value → Option Quantity
  | .bool b => some (.ofInt (if b then 1 else 0))
  | .int n => some (.ofInt n)
  | .float x => x.quantity?
  | .decimal d => d.quantity?
  | _ => none

/-- The sign of an infinite number: whether it is negative. -/
def infinity? : Value → Option Bool
  | .float (.infinite negative) => some negative
  | .decimal (.infinite negative) => some negative
  | _ => none

/-- Whether a value is a not-a-number. -/
def isNan : Value → Bool
  | .float (.nan _) => true
  | .decimal (.nan ..) => true
  | _ => false

/-- Equality of values without parts. -/
def sameAtom : Value → Value → Bool
  | .null, .null => true
  | .text s, .text t => s == t
  | .member m, .member n => m == n
  | .float (.nan i), .float (.nan j) => i == j
  | .decimal (.nan _ _ _ i), .decimal (.nan _ _ _ j) => i == j
  | v, w =>
    match v.quantity?, w.quantity? with
    | some p, some q => p == q
    | _, _ =>
      match v.infinity?, w.infinity? with
      | some p, some q => p == q
      | _, _ => false

mutual

/-- Whether nothing distinguishes two values. -/
def same : Value → Value → Bool
  | .list xs, w => match w with
    | .list ys => sameItems xs ys
    | _ => false
  | .tuple xs, w => match w with
    | .tuple ys => sameItems xs ys
    | _ => false
  | .mapping xs, w => match w with
    | .mapping ys => xs.length == ys.length && sameEntries xs ys
    | _ => false
  | .record k xs, w => match w with
    | .record l ys => k == l && sameAttributes xs ys
    | _ => false
  | v, w => sameAtom v w

/-- Whether two lists have the same items at the same places. -/
def sameItems : List Value → List Value → Bool
  | [], ys => ys.isEmpty
  | x :: xs, ys => match ys with
    | [] => false
    | y :: ys => same x y && sameItems xs ys

/-- Whether every entry of the first mapping is one of the second. -/
def sameEntries : List (Value × Value) → List (Value × Value) → Bool
  | [], _ => true
  | (k, v) :: es, ys => (ys.any fun e => same k e.1 && same v e.2) && sameEntries es ys

/-- Whether two records have the same attributes. -/
def sameAttributes : List (String × Value) → List (String × Value) → Bool
  | [], ys => ys.isEmpty
  | (_, x) :: xs, ys => match ys with
    | [] => false
    | (_, y) :: ys => same x y && sameAttributes xs ys

end

/-- Equality in which a not-a-number differs from everything. -/
def equal (v w : Value) : Bool := same v w && !isNan v

mutual

/-- Whether a value can be a key: nothing in it can change. -/
def isHashable : Value → Bool
  | .list _ => false
  | .mapping _ => false
  | .record _ _ => false
  | .tuple items => allHashable items
  | .decimal (.nan _ signaling _ _) => !signaling
  | _ => true

/-- Whether all items can be keys. -/
def allHashable : List Value → Bool
  | [] => true
  | v :: vs => isHashable v && allHashable vs

end

end SchemaCompiler.Value
