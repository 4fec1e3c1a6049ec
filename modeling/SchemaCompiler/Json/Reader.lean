import SchemaCompiler.Json.Error
import SchemaCompiler.Value.Reading

/-!
# Reading JSON

`Json.parse` reads a text as one JSON value.  A key that occurs twice keeps its first place and its
last value; a number with a point or an exponent is a double-precision number, any other a whole
number; the constants `NaN`, `Infinity` and `-Infinity` are allowed.  A text may be JSON and still
not be read: a whole number may have too many digits, and an escape may stand for half of a
surrogate pair without its other half, which is no character and has no place in a text.

The reader goes from left to right and stops at the first character that cannot be right.  What it
reads next and what it has read so far, as a number of characters, is a `Cursor`.
-/

namespace SchemaCompiler.Json

open Number

/-- A place in a text: what is left to read, and how many characters stand before it. -/
structure Cursor where
  rest : List Char
  position : Nat

/-- Why reading stops. -/
inductive Stop where
  /-- A problem at a position. -/
  | malformed (problem : Problem) (position : Nat)
  /-- A whole number with too many digits. -/
  | longNumber
  /-- Half of a surrogate pair. -/
  | halfCharacter

/-- Whether a character may stand between the tokens. -/
def isSpace (c : Char) : Bool := c == ' ' || c == '\t' || c == '\n' || c == '\r'

/-- Skip `n` characters. -/
def Cursor.skip (n : Nat) (c : Cursor) : Cursor := ⟨c.rest.drop n, c.position + n⟩

/-- Skip space. -/
def Cursor.skipSpace (c : Cursor) : Cursor := c.skip (c.rest.takeWhile isSpace).length

/-- The value of a hexadecimal digit. -/
def hexDigit? (c : Char) : Option Nat :=
  if '0' ≤ c ∧ c ≤ '9' then some (c.toNat - '0'.toNat)
  else if 'a' ≤ c ∧ c ≤ 'f' then some (c.toNat - 'a'.toNat + 10)
  else if 'A' ≤ c ∧ c ≤ 'F' then some (c.toNat - 'A'.toNat + 10)
  else none

/-- The number that the next four characters write, if another character follows them. -/
def hexUnit? : List Char → Option Nat
  | a :: b :: c :: d :: _ :: _ => do
    return (((← hexDigit? a) * 16 + (← hexDigit? b)) * 16 + (← hexDigit? c)) * 16 + (← hexDigit? d)
  | _ => none

/-- The character that a one-letter escape stands for. -/
def escape? : Char → Option Char
  | '"' => some '"'
  | '\\' => some '\\'
  | '/' => some '/'
  | 'b' => some '\x08'
  | 'f' => some '\x0c'
  | 'n' => some '\n'
  | 'r' => some '\r'
  | 't' => some '\t'
  | _ => none

/-- Whether a code unit is the first half of a pair. -/
def isHighHalf (n : Nat) : Bool := 0xD800 ≤ n && n < 0xDC00

/-- Whether a code unit is the second half of a pair. -/
def isLowHalf (n : Nat) : Bool := 0xDC00 ≤ n && n < 0xE000

/-- The character of a code unit that stands alone, unless it is half of a pair. -/
def charOfUnit? (n : Nat) : Option Char :=
  if isHighHalf n || isLowHalf n then none else some (Char.ofNat n)

/-- The character of a pair of code units. -/
def charOfPair (high low : Nat) : Char :=
  Char.ofNat (0x10000 + (high - 0xD800) * 0x400 + (low - 0xDC00))

/-- What the four digits of a code unit are read as where it stands alone: the character, and how many
characters of the text it takes. -/
def readAlone (unit : Nat) : Except Stop (Char × Nat) :=
  match charOfUnit? unit with
  | some char => .ok (char, 4)
  | none => .error .halfCharacter

/-- Read a numbered escape whose digits are at the cursor: the character, and how many characters
of the text it takes. -/
def readUnicodeEscape (c : Cursor) : Except Stop (Char × Nat) :=
  match hexUnit? c.rest with
  | none => .error (.malformed .invalidUnicodeEscape (c.position - 1))
  | some high =>
    match c.rest.drop 4 with
    | '\\' :: 'u' :: tail =>
      if isHighHalf high && 4 < tail.length then
        match hexUnit? tail with
        | none => .error (.malformed .invalidUnicodeEscape (c.position + 5))
        | some low =>
          if isLowHalf low then .ok (charOfPair high low, 10)
          else readAlone high
      else readAlone high
    | _ => readAlone high

/-- Read the rest of a string that started at `start`, where `before` holds the characters read so
far, last one first. -/
def readString (start : Nat) : Nat → List Char → Cursor → Except Stop (List Char × Cursor)
  | 0, _, _ => .error (.malformed .unterminatedString start)
  | fuel + 1, before, c =>
    match c.rest with
    | [] => .error (.malformed .unterminatedString start)
    | '"' :: _ => .ok (before.reverse, c.skip 1)
    | ['\\'] => .error (.malformed .unterminatedString start)
    | '\\' :: 'u' :: _ => do
      let (char, length) ← readUnicodeEscape (c.skip 2)
      readString start fuel (char :: before) (c.skip (2 + length))
    | '\\' :: e :: _ =>
      match escape? e with
      | some char => readString start fuel (char :: before) (c.skip 2)
      | none => .error (.malformed .invalidEscape c.position)
    | char :: _ =>
      if char.toNat < 32 then .error (.malformed .controlCharacter c.position)
      else readString start fuel (char :: before) (c.skip 1)

/-- Whether a character is a digit of a JSON number. -/
def isNumberDigit (c : Char) : Bool := '0' ≤ c && c ≤ '9'

/-- The parts of a number: its sign, and the digits of its parts. -/
structure NumberText where
  negative : Bool
  whole : List Char
  fraction : List Char
  exponent : Option Int
  length : Nat

/-- The exponent at the front of a text, if there is one, and how many characters it takes. -/
def exponent? : List Char → Option (Int × Nat)
  | e :: rest =>
    if e = 'e' ∨ e = 'E' then
      let (negative, digits, signs) :=
        match rest with
        | '-' :: r => (true, r.takeWhile isNumberDigit, 1)
        | '+' :: r => (false, r.takeWhile isNumberDigit, 1)
        | r => (false, r.takeWhile isNumberDigit, 0)
      let n : Int := Text.numberOf digits
      if digits.isEmpty then none
      else some (if negative then -n else n, 1 + signs + digits.length)
    else none
  | [] => none

/-- The longest number at the front of a text. -/
def numberText? (cs : List Char) : Option NumberText :=
  let negative := cs.head? == some '-'
  let rest := if negative then cs.drop 1 else cs
  let whole :=
    match rest with
    | '0' :: _ => ['0']
    | r => r.takeWhile isNumberDigit
  let afterWhole := rest.drop whole.length
  let fraction :=
    match afterWhole with
    | '.' :: r => r.takeWhile isNumberDigit
    | _ => []
  let afterFraction := if fraction.isEmpty then afterWhole else afterWhole.drop (fraction.length + 1)
  let exponent := exponent? afterFraction
  if whole.isEmpty then none
  else some {
    negative, whole, fraction
    exponent := exponent.map Prod.fst
    length := cs.length - afterFraction.length + (exponent.map Prod.snd).getD 0 }

/-- The value of a number; a whole one must not have too many digits. -/
def NumberText.value (n : NumberText) : Except Stop Value :=
  if n.fraction.isEmpty && n.exponent.isNone then
    let whole : Int := Text.numberOf n.whole
    if n.whole.length ≤ Text.maxDigits then .ok (.int (if n.negative then -whole else whole))
    else .error .longNumber
  else
    .ok <| .float (Binary64.ofDecimal n.negative (Text.numberOf (n.whole ++ n.fraction))
      (n.exponent.getD 0 - n.fraction.length))

/-- The constants, each with its spelling. -/
def constants : List (List Char × Value) :=
  [("null".toList, .null), ("true".toList, .bool true), ("false".toList, .bool false),
    ("NaN".toList, .float (.nan 0)), ("Infinity".toList, .float (.infinite false)),
    ("-Infinity".toList, .float (.infinite true))]

/-- Read a value that is neither a string nor made of others. -/
def readAtom (c : Cursor) : Except Stop (Value × Cursor) :=
  match constants.find? fun k => k.1.isPrefixOf c.rest with
  | some (spelling, value) => .ok (value, c.skip spelling.length)
  | none =>
    match numberText? c.rest with
    | some n => n.value.map fun value => (value, c.skip n.length)
    | none => .error (.malformed .expectedValue c.position)

mutual

/-- Read a value. -/
def readValue : Nat → Cursor → Except Stop (Value × Cursor)
  | 0, c => .error (.malformed .expectedValue c.position)
  | fuel + 1, c =>
    match c.rest with
    | '"' :: _ => do
      let (cs, c') ← readString c.position fuel [] (c.skip 1)
      return (.text (String.ofList cs), c')
    | '{' :: _ =>
      let c' := (c.skip 1).skipSpace
      if c'.rest.head? = some '}' then .ok (.mapping [], c'.skip 1)
      else readMembers fuel [] c'
    | '[' :: _ =>
      let c' := (c.skip 1).skipSpace
      if c'.rest.head? = some ']' then .ok (.list [], c'.skip 1)
      else readItems fuel [] c'
    | _ => readAtom c

/-- Read the members of an object up to its end, where `entries` are those read so far. -/
def readMembers : Nat → List (Value × Value) → Cursor → Except Stop (Value × Cursor)
  | 0, _, c => .error (.malformed .expectedName c.position)
  | fuel + 1, entries, c =>
    if c.rest.head? = some '"' then do
      let (key, c) ← readString c.position fuel [] (c.skip 1)
      let c := c.skipSpace
      if c.rest.head? = some ':' then
        let (value, c) ← readValue fuel (c.skip 1).skipSpace
        let c := c.skipSpace
        let entries := Value.insertEntry (.text (String.ofList key)) value entries
        match c.rest with
        | '}' :: _ => return (.mapping entries, c.skip 1)
        | ',' :: _ => readMembers fuel entries (c.skip 1).skipSpace
        | _ => .error (.malformed .expectedComma c.position)
      else .error (.malformed .expectedColon c.position)
    else .error (.malformed .expectedName c.position)

/-- Read the items of an array up to its end, where `before` holds those read so far, last one
first. -/
def readItems : Nat → List Value → Cursor → Except Stop (Value × Cursor)
  | 0, _, c => .error (.malformed .expectedValue c.position)
  | fuel + 1, before, c => do
    let (item, c) ← readValue fuel c
    let c := c.skipSpace
    match c.rest with
    | ']' :: _ => return (.list (item :: before).reverse, c.skip 1)
    | ',' :: _ => readItems fuel (item :: before) (c.skip 1).skipSpace
    | _ => .error (.malformed .expectedComma c.position)

end

/-- Read a text that holds one value and space around it. -/
def readDocument (cs : List Char) : Except Stop Value := do
  let (value, c) ← readValue (2 * cs.length + 2) (Cursor.mk cs 0).skipSpace
  let c := c.skipSpace
  if c.rest.isEmpty then .ok value else .error (.malformed .extraData c.position)

/-- Why a text is not read as JSON. -/
inductive Failure where
  /-- It is no JSON. -/
  | malformed (error : Error)
  /-- It is, but with a whole number that has too many digits. -/
  | longNumber
  /-- It is, but with half of a surrogate pair in it. -/
  | halfCharacter

/-- Why the text `cs` is not read, where reading stopped. -/
def Failure.ofStop (cs : List Char) : Stop → Failure
  | .malformed problem position => .malformed (.at cs problem position)
  | .longNumber => .longNumber
  | .halfCharacter => .halfCharacter

/-- Read a text as one JSON value. -/
def parse (s : String) : Except Failure Value :=
  let cs := s.toList
  if cs.head? = some '\ufeff' then .error (.malformed (.at cs .byteOrderMark 0))
  else (readDocument cs).mapError (Failure.ofStop cs)

end SchemaCompiler.Json
