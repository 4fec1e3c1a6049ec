import Mathlib.Data.List.Find
import SchemaCompiler.Proofs.Json.RoundTrip

/-!
# Steps of the JSON reader

What one step of the reader does, where it ends well: which character it finds, what it reads from
there, and where it stops.  A step of an object or of an array goes on behind a comma and ends
behind the closing mark, so that what has been read is always the front of the text that was there.

* `Json.readString_eq_ok`, `Json.readValue_eq_ok`, `Json.readMembers_eq_ok`, `Json.readItems_eq_ok`
  — **what one step does**;
* `Json.upTo_of_readString`, `Json.upTo_of_reads` — **a string, an object and an array are read up
  to their closing mark**.
-/

namespace SchemaCompiler.Json

/-! ### The parts of a number -/

/-- The sign and the digits behind the letter of an exponent, and how many characters the sign
takes. -/
def signedDigits : List Char → Bool × List Char × Nat
  | '-' :: r => (true, r.takeWhile isNumberDigit, 1)
  | '+' :: r => (false, r.takeWhile isNumberDigit, 1)
  | r => (false, r.takeWhile isNumberDigit, 0)

theorem exponent?_cons (e : Char) (rest : List Char) :
    exponent? (e :: rest) =
      if e = 'e' ∨ e = 'E' then
        if (signedDigits rest).2.1.isEmpty then none
        else some (if (signedDigits rest).1 then -(Text.numberOf (signedDigits rest).2.1 : Int)
          else Text.numberOf (signedDigits rest).2.1,
          1 + (signedDigits rest).2.2 + (signedDigits rest).2.1.length)
      else none := rfl

/-- The digits of a number before its point. -/
def wholeDigits : List Char → List Char
  | '0' :: _ => ['0']
  | r => r.takeWhile isNumberDigit

/-- The digits of a number behind its point, if there is one. -/
def fractionDigits : List Char → List Char
  | '.' :: r => r.takeWhile isNumberDigit
  | _ => []

/-- What follows the digits behind a point. -/
def afterFraction (cs : List Char) : List Char :=
  if (fractionDigits cs).isEmpty then cs else cs.drop ((fractionDigits cs).length + 1)

theorem numberText?_eq (cs : List Char) :
    numberText? cs =
      (let negative := cs.head? == some '-'
      let rest := if negative then cs.drop 1 else cs
      let whole := wholeDigits rest
      let after := afterFraction (rest.drop whole.length)
      if whole.isEmpty then none
      else some {
        negative, whole
        fraction := fractionDigits (rest.drop whole.length)
        exponent := (exponent? after).map Prod.fst
        length := cs.length - after.length + ((exponent? after).map Prod.snd).getD 0 }) := rfl

/-! ### Numbered escapes -/

/-- Four digits are read, and the character behind them only has to be there. -/
theorem exists_of_hexUnit? {cs : List Char} {n : Nat} (h : hexUnit? cs = some n) :
    ∃ digits rest, cs = digits ++ rest ∧ digits.length = 4 ∧
      (∀ c ∈ digits, (hexDigit? c).isSome = true) ∧
      ∀ rest', rest' ≠ [] → hexUnit? (digits ++ rest') = some n := by
  unfold hexUnit? at h
  split at h
  next a b c d e more =>
    obtain ⟨p, hp, h⟩ := Option.bind_eq_some_iff.1 h
    obtain ⟨q, hq, h⟩ := Option.bind_eq_some_iff.1 h
    obtain ⟨r, hr, h⟩ := Option.bind_eq_some_iff.1 h
    obtain ⟨s, hs, h⟩ := Option.bind_eq_some_iff.1 h
    refine ⟨[a, b, c, d], e :: more, rfl, rfl, ?_, ?_⟩
    · simp [hp, hq, hr, hs]
    · intro rest' hrest'
      obtain ⟨f, more', rfl⟩ := List.exists_cons_of_ne_nil hrest'
      simp only [List.cons_append, List.nil_append, hexUnit?, hp, hq, hr, hs]
      exact h
  next => exact nomatch h

/-- What follows a numbered escape that may be continued by a second one, behind the start of that
one. -/
def secondEscape? (high : Nat) : List Char → Option (List Char)
  | '\\' :: 'u' :: tail => if isHighHalf high && 4 < tail.length then some tail else none
  | _ => none

theorem secondEscape?_eq_some {high : Nat} {cs tail : List Char} :
    secondEscape? high cs = some tail ↔
      cs = '\\' :: 'u' :: tail ∧ isHighHalf high = true ∧ 4 < tail.length := by
  unfold secondEscape?
  split
  next rest => grind
  next hother =>
    constructor
    · exact nofun
    · rintro ⟨rfl, -⟩
      exact absurd rfl (hother tail)

theorem of_readAlone {unit length : Nat} {char : Char} (h : readAlone unit = .ok (char, length)) :
    length = 4 := by
  unfold readAlone at h
  split at h
  next =>
    obtain ⟨-, rfl⟩ := Prod.mk.inj (Except.ok.inj h)
    rfl
  next => cases h

theorem readUnicodeEscape_of_none {c : Cursor} {high : Nat} (hhigh : hexUnit? c.rest = some high)
    (h : secondEscape? high (c.rest.drop 4) = none) :
    readUnicodeEscape c = readAlone high := by
  simp only [readUnicodeEscape, hhigh]
  split
  next tail htail =>
    split
    next hpair =>
      rw [htail, secondEscape?, if_pos hpair] at h
      exact nomatch h
    next => rfl
  next => rfl

theorem readUnicodeEscape_of_some {c : Cursor} {high : Nat} {tail : List Char}
    (hhigh : hexUnit? c.rest = some high) (h : secondEscape? high (c.rest.drop 4) = some tail) :
    readUnicodeEscape c =
      match hexUnit? tail with
      | none => .error (.malformed .invalidUnicodeEscape (c.position + 5))
      | some low => if isLowHalf low then .ok (charOfPair high low, 10) else readAlone high := by
  obtain ⟨htail, hhalf, hlong⟩ := secondEscape?_eq_some.1 h
  have hpair : (isHighHalf high && decide (4 < tail.length)) = true := by
    rw [hhalf, decide_eq_true hlong, Bool.and_self]
  simp only [readUnicodeEscape, hhigh, htail]
  exact if_pos hpair

/-! ### Steps -/

/-- What one step of reading a string does, where the string is read: it ends, or a character is
read that takes some of the text. -/
theorem readString_eq_ok {start fuel : Nat} {before cs : List Char} {c d : Cursor} :
    readString start (fuel + 1) before c = .ok (cs, d) ↔
      (∃ rest, c.rest = '"' :: rest ∧ cs = before.reverse ∧ d = c.skip 1) ∨
      (∃ rest char length, c.rest = '\\' :: 'u' :: rest ∧
        readUnicodeEscape (c.skip 2) = .ok (char, length) ∧
        readString start fuel (char :: before) (c.skip (2 + length)) = .ok (cs, d)) ∨
      (∃ e rest char, c.rest = '\\' :: e :: rest ∧ e ≠ 'u' ∧ escape? e = some char ∧
        readString start fuel (char :: before) (c.skip 2) = .ok (cs, d)) ∨
      ∃ char rest, c.rest = char :: rest ∧ char ≠ '"' ∧ char ≠ '\\' ∧ ¬char.toNat < 32 ∧
        readString start fuel (char :: before) (c.skip 1) = .ok (cs, d) := by
  constructor
  · intro h
    rw [readString] at h
    split at h
    next => cases h
    next rest heq =>
      obtain ⟨rfl, rfl⟩ := Prod.mk.inj (Except.ok.inj h)
      exact .inl ⟨rest, heq, rfl, rfl⟩
    next => cases h
    next rest heq =>
      obtain ⟨⟨char, length⟩, hread, h⟩ := bind_eq_ok.1 h
      exact .inr (.inl ⟨rest, char, length, heq, hread, h⟩)
    next e rest hu heq =>
      split at h
      next char hchar => exact .inr (.inr (.inl ⟨e, rest, char, heq, hu, hchar, h⟩))
      next => cases h
    next char rest hquote hlast _ hslash heq =>
      split at h
      next => cases h
      next hcontrol =>
        have hplain : char ≠ '\\' := by
          intro hchar
          cases rest with
          | nil => exact hlast hchar rfl
          | cons e tail => exact hslash e tail hchar rfl
        exact .inr (.inr (.inr ⟨char, rest, heq, hquote, hplain, hcontrol, h⟩))
  · rintro (⟨rest, heq, rfl, rfl⟩ | ⟨rest, char, length, heq, hread, h⟩ |
      ⟨e, rest, char, heq, hu, hchar, h⟩ | ⟨char, rest, heq, hquote, hslash, hcontrol, h⟩)
    · simp only [readString, heq]
    · simp only [readString, heq, hread]
      exact h
    · simp only [readString, heq, hchar]
      exact h
    · have hc : c = ⟨char :: rest, c.position⟩ := by rw [← heq]
      rw [hc, readString_plain start fuel before hquote hslash hcontrol]
      rw [hc] at h
      exact h

/-- What one step of reading a value does, where it is read. -/
theorem readValue_eq_ok {fuel : Nat} {c d : Cursor} {value : Value} :
    readValue (fuel + 1) c = .ok (value, d) ↔
      (c.rest.head? = some '"' ∧ ∃ cs, readString c.position fuel [] (c.skip 1) = .ok (cs, d) ∧
        value = .text (String.ofList cs)) ∨
      (c.rest.head? = some '\x7b' ∧
        if (c.skip 1).skipSpace.rest.head? = some '\x7d' then
          value = .mapping [] ∧ d = (c.skip 1).skipSpace.skip 1
        else readMembers fuel [] (c.skip 1).skipSpace = .ok (value, d)) ∨
      (c.rest.head? = some '[' ∧
        if (c.skip 1).skipSpace.rest.head? = some ']' then
          value = .list [] ∧ d = (c.skip 1).skipSpace.skip 1
        else readItems fuel [] (c.skip 1).skipSpace = .ok (value, d)) ∨
      (c.rest.head? ≠ some '"' ∧ c.rest.head? ≠ some '\x7b' ∧ c.rest.head? ≠ some '[' ∧
        readAtom c = .ok (value, d)) := by
  rw [readValue]
  split
  next heq =>
    rw [bind_eq_ok]
    simp only [heq, List.head?_cons, Option.some.injEq]
    constructor
    · rintro ⟨⟨cs, e⟩, hread, hpure⟩
      obtain ⟨rfl, rfl⟩ := Prod.mk.inj (Except.ok.inj hpure)
      exact .inl ⟨trivial, cs, hread, rfl⟩
    · rintro (⟨-, cs, hread, rfl⟩ | ⟨hc, -⟩ | ⟨hc, -⟩ | ⟨hc, -⟩)
      · exact ⟨(cs, d), hread, rfl⟩
      · exact absurd hc (by decide)
      · exact absurd hc (by decide)
      · exact absurd rfl hc
  next heq =>
    simp only [heq, List.head?_cons]
    split <;> simp [eq_comm]
  next heq =>
    simp only [heq, List.head?_cons]
    split <;> simp [eq_comm]
  next hquote hbrace hbracket =>
    have hhead : ∀ char : Char, (∀ tail, c.rest = char :: tail → False) →
        c.rest.head? ≠ some char := by
      intro char hchar hhead
      obtain ⟨tail, htail⟩ := List.head?_eq_some_iff.1 hhead
      exact hchar tail htail
    simp [hhead _ hquote, hhead _ hbrace, hhead _ hbracket]

/-- What one step of reading the members of an object does, where they are read. -/
theorem readMembers_eq_ok {fuel : Nat} {entries : List (Value × Value)} {c d : Cursor}
    {value : Value} :
    readMembers (fuel + 1) entries c = .ok (value, d) ↔
      c.rest.head? = some '"' ∧ ∃ key k, readString c.position fuel [] (c.skip 1) = .ok (key, k) ∧
        k.skipSpace.rest.head? = some ':' ∧
        ∃ member m, readValue fuel (k.skipSpace.skip 1).skipSpace = .ok (member, m) ∧
          (m.skipSpace.rest.head? = some '\x7d' ∧ d = m.skipSpace.skip 1 ∧
              value = .mapping (Value.insertEntry (.text (String.ofList key)) member entries) ∨
            m.skipSpace.rest.head? = some ',' ∧
              readMembers fuel (Value.insertEntry (.text (String.ofList key)) member entries)
                (m.skipSpace.skip 1).skipSpace = .ok (value, d)) := by
  rw [readMembers]
  split
  next hquote =>
    rw [bind_eq_ok]
    constructor
    · rintro ⟨⟨key, k⟩, hkey, h⟩
      refine ⟨hquote, key, k, hkey, ?_⟩
      dsimp only at h
      split at h
      next hcolon =>
        obtain ⟨⟨member, m⟩, hmember, h⟩ := bind_eq_ok.1 h
        refine ⟨hcolon, member, m, hmember, ?_⟩
        dsimp only at h
        split at h
        next heq =>
          obtain ⟨rfl, rfl⟩ := Prod.mk.inj (Except.ok.inj h)
          exact .inl ⟨by rw [heq]; rfl, rfl, rfl⟩
        next heq => exact .inr ⟨by rw [heq]; rfl, h⟩
        next => exact nomatch h
      next => exact nomatch h
    · rintro ⟨-, key, k, hkey, hcolon, member, m, hmember, h⟩
      refine ⟨(key, k), hkey, ?_⟩
      dsimp only
      rw [if_pos hcolon]
      refine bind_eq_ok.2 ⟨(member, m), hmember, ?_⟩
      rcases h with ⟨hclose, rfl, rfl⟩ | ⟨hcomma, h⟩
      · obtain ⟨tail, heq⟩ := List.head?_eq_some_iff.1 hclose
        simp only [heq]
        rfl
      · obtain ⟨tail, heq⟩ := List.head?_eq_some_iff.1 hcomma
        simp only [heq]
        exact h
  next hquote => simp [hquote]

/-- What one step of reading the items of an array does, where they are read. -/
theorem readItems_eq_ok {fuel : Nat} {before : List Value} {c d : Cursor} {value : Value} :
    readItems (fuel + 1) before c = .ok (value, d) ↔
      ∃ item m, readValue fuel c = .ok (item, m) ∧
        (m.skipSpace.rest.head? = some ']' ∧ d = m.skipSpace.skip 1 ∧
            value = .list (item :: before).reverse ∨
          m.skipSpace.rest.head? = some ',' ∧
            readItems fuel (item :: before) (m.skipSpace.skip 1).skipSpace = .ok (value, d)) := by
  rw [readItems, bind_eq_ok]
  constructor
  · rintro ⟨⟨item, m⟩, hitem, h⟩
    refine ⟨item, m, hitem, ?_⟩
    dsimp only at h
    split at h
    next heq =>
      obtain ⟨rfl, rfl⟩ := Prod.mk.inj (Except.ok.inj h)
      exact .inl ⟨by rw [heq]; rfl, rfl, rfl⟩
    next heq => exact .inr ⟨by rw [heq]; rfl, h⟩
    next => cases h
  · rintro ⟨item, m, hitem, h⟩
    refine ⟨(item, m), hitem, ?_⟩
    rcases h with ⟨hclose, rfl, rfl⟩ | ⟨hcomma, h⟩
    · obtain ⟨tail, heq⟩ := List.head?_eq_some_iff.1 hclose
      simp only [heq]
      rfl
    · obtain ⟨tail, heq⟩ := List.head?_eq_some_iff.1 hcomma
      simp only [heq]
      exact h

theorem exists_mapping_of_readMembers {fuel : Nat} {entries : List (Value × Value)} {c d : Cursor}
    {value : Value} (h : readMembers fuel entries c = .ok (value, d)) :
    ∃ members, value = .mapping members := by
  induction fuel generalizing entries c with
  | zero => exact nomatch h
  | succ fuel ih =>
    obtain ⟨-, key, k, -, -, member, m, -, ⟨-, -, rfl⟩ | ⟨-, h⟩⟩ := readMembers_eq_ok.1 h
    · exact ⟨_, rfl⟩
    · exact ih h

theorem exists_list_of_readItems {fuel : Nat} {before : List Value} {c d : Cursor} {value : Value}
    (h : readItems fuel before c = .ok (value, d)) : ∃ items, value = .list items := by
  induction fuel generalizing before c with
  | zero => exact nomatch h
  | succ fuel ih =>
    obtain ⟨item, m, -, ⟨-, -, rfl⟩ | ⟨-, h⟩⟩ := readItems_eq_ok.1 h
    · exact ⟨_, rfl⟩
    · exact ih h

/-- What starts as an object or an array does is one. -/
theorem exists_of_readValue {fuel : Nat} {c d : Cursor} {value : Value}
    (h : readValue fuel c = .ok (value, d))
    (hstart : c.rest.head? = some '\x7b' ∨ c.rest.head? = some '[') :
    (∃ entries, value = .mapping entries) ∨ ∃ items, value = .list items := by
  cases fuel with
  | zero => exact nomatch h
  | succ fuel =>
    rcases readValue_eq_ok.1 h with ⟨hquote, -⟩ | ⟨-, h⟩ | ⟨-, h⟩ | ⟨-, hbrace, hbracket, -⟩
    · rw [hquote] at hstart
      exact absurd hstart (by decide)
    · left
      split at h
      next => exact ⟨[], h.1⟩
      next => exact exists_mapping_of_readMembers h
    · right
      split at h
      next => exact ⟨[], h.1⟩
      next => exact exists_list_of_readItems h
    · exact absurd hstart (not_or.2 ⟨hbrace, hbracket⟩)

theorem readDocument_eq_ok {cs : List Char} {value : Value} :
    readDocument cs = .ok value ↔
      ∃ c, readValue (2 * cs.length + 2) (Cursor.mk cs 0).skipSpace = .ok (value, c) ∧
        c.skipSpace.rest = [] := by
  rw [readDocument, bind_eq_ok]
  constructor
  · rintro ⟨⟨v, c⟩, hread, h⟩
    dsimp only at h
    split at h
    next hempty =>
      obtain rfl := Except.ok.inj h
      exact ⟨c, hread, List.isEmpty_iff.1 hempty⟩
    next => cases h
  · rintro ⟨c, hread, hend⟩
    refine ⟨(value, c), hread, ?_⟩
    dsimp only
    rw [if_pos (List.isEmpty_iff.2 hend)]

theorem parse_eq_ok {s : String} {value : Value} :
    parse s = .ok value ↔ s.toList.head? ≠ some '\ufeff' ∧ readDocument s.toList = .ok value := by
  unfold parse
  dsimp only
  split
  next hmark => simp [hmark]
  next hmark =>
    cases readDocument s.toList with
    | error stop => simp [Except.mapError]
    | ok v => simp [Except.mapError, hmark]

/-! ### What has been read -/

theorem drop_length_takeWhile (p : Char → Bool) (cs : List Char) :
    cs.drop (cs.takeWhile p).length = cs.dropWhile p := by
  have h : (cs.takeWhile p ++ cs.dropWhile p).drop (cs.takeWhile p).length = cs.dropWhile p :=
    List.drop_left
  rw [List.takeWhile_append_dropWhile] at h
  exact h

theorem rest_skipSpace (c : Cursor) : c.skipSpace.rest = c.rest.dropWhile isSpace :=
  drop_length_takeWhile isSpace c.rest

/-- From one place of a text to another one, just behind a character. -/
def UpTo (mark : Char) (c d : Cursor) : Prop := ∃ used, c.rest = used ++ mark :: d.rest

theorem UpTo.of_suffix {mark : Char} {c d e : Cursor} (h : UpTo mark d e)
    (hsuffix : d.rest <:+ c.rest) : UpTo mark c e := by
  obtain ⟨used, hused⟩ := h
  obtain ⟨front, hfront⟩ := hsuffix
  exact ⟨front ++ used, by rw [List.append_assoc, ← hused, hfront]⟩

theorem UpTo.suffix {mark : Char} {c d : Cursor} (h : UpTo mark c d) : d.rest <:+ c.rest := by
  obtain ⟨used, hused⟩ := h
  exact ⟨used ++ [mark], by rw [hused, List.append_assoc]; rfl⟩

theorem UpTo.length_lt {mark : Char} {c d : Cursor} (h : UpTo mark c d) :
    d.rest.length < c.rest.length := by
  obtain ⟨used, hused⟩ := h
  rw [hused, List.length_append, List.length_cons]
  omega

theorem skip_suffix (n : Nat) (c : Cursor) : (c.skip n).rest <:+ c.rest := List.drop_suffix n c.rest

theorem skipSpace_suffix (c : Cursor) : c.skipSpace.rest <:+ c.rest := skip_suffix _ c

theorem upTo_skip {mark : Char} {c : Cursor} (h : c.rest.head? = some mark) :
    UpTo mark c (c.skip 1) := by
  obtain ⟨rest, hrest⟩ := List.head?_eq_some_iff.1 h
  refine ⟨[], ?_⟩
  rw [Cursor.skip, hrest]
  rfl

/-- A string is read up to its closing quote. -/
theorem upTo_of_readString {start fuel : Nat} {before cs : List Char} {c d : Cursor}
    (h : readString start fuel before c = .ok (cs, d)) : UpTo '"' c d := by
  induction fuel generalizing before c with
  | zero => exact nomatch h
  | succ fuel ih =>
    rcases readString_eq_ok.1 h with ⟨rest, heq, rfl, rfl⟩ | ⟨rest, char, length, -, -, h⟩ |
      ⟨e, rest, char, -, -, -, h⟩ | ⟨char, rest, -, -, -, -, h⟩
    · exact upTo_skip (by rw [heq]; rfl)
    · exact (ih h).of_suffix (skip_suffix _ c)
    · exact (ih h).of_suffix (skip_suffix _ c)
    · exact (ih h).of_suffix (skip_suffix _ c)

theorem quote_mem_of_readString {start fuel : Nat} {before cs : List Char} {c d : Cursor}
    (h : readString start fuel before c = .ok (cs, d)) : '"' ∈ c.rest := by
  obtain ⟨used, hused⟩ := upTo_of_readString h
  rw [hused]
  exact List.mem_append_right _ List.mem_cons_self

theorem suffix_of_readAtom {c d : Cursor} {value : Value} (h : readAtom c = .ok (value, d)) :
    d.rest <:+ c.rest := by
  unfold readAtom at h
  split at h
  next =>
    obtain ⟨rfl, rfl⟩ := Prod.mk.inj (Except.ok.inj h)
    exact skip_suffix _ c
  next =>
    split at h
    next =>
      obtain ⟨_, -, hpair⟩ := map_eq_ok.1 h
      obtain ⟨rfl, rfl⟩ := Prod.mk.inj hpair
      exact skip_suffix _ c
    next => exact nomatch h

/-- What is left behind a value is the end of what was there, and behind the members of an object
and the items of an array it is what follows the closing mark. -/
theorem upTo_of_reads (fuel : Nat) :
    (∀ {c d value}, readValue fuel c = .ok (value, d) → d.rest <:+ c.rest) ∧
    (∀ {entries c d value}, readMembers fuel entries c = .ok (value, d) → UpTo '\x7d' c d) ∧
    ∀ {before c d value}, readItems fuel before c = .ok (value, d) → UpTo ']' c d := by
  induction fuel with
  | zero => exact ⟨nofun, nofun, nofun⟩
  | succ fuel ih =>
    obtain ⟨hvalue, hmembers, hitems⟩ := ih
    have hopen : ∀ c : Cursor, (c.skip 1).skipSpace.rest <:+ c.rest := fun c =>
      (skipSpace_suffix _).trans (skip_suffix 1 c)
    refine ⟨?_, ?_, ?_⟩
    · intro c d value h
      rcases readValue_eq_ok.1 h with ⟨-, cs, hstring, -⟩ | ⟨-, h⟩ | ⟨-, h⟩ | ⟨-, -, -, h⟩
      · exact (upTo_of_readString hstring).suffix.trans (skip_suffix 1 c)
      · split at h
        next => exact h.2 ▸ (skip_suffix 1 _).trans (hopen c)
        next => exact (hmembers h).suffix.trans (hopen c)
      · split at h
        next => exact h.2 ▸ (skip_suffix 1 _).trans (hopen c)
        next => exact (hitems h).suffix.trans (hopen c)
      · exact suffix_of_readAtom h
    · intro entries c d value h
      obtain ⟨-, key, k, hkey, -, member, m, hmember, h⟩ := readMembers_eq_ok.1 h
      have hbehind : m.skipSpace.rest <:+ c.rest :=
        (skipSpace_suffix m).trans ((hvalue hmember).trans ((hopen _).trans
          ((skipSpace_suffix k).trans ((upTo_of_readString hkey).suffix.trans (skip_suffix 1 c)))))
      rcases h with ⟨hclose, rfl, -⟩ | ⟨-, h⟩
      · exact (upTo_skip hclose).of_suffix hbehind
      · exact (hmembers h).of_suffix ((hopen _).trans hbehind)
    · intro before c d value h
      obtain ⟨item, m, hitem, h⟩ := readItems_eq_ok.1 h
      have hbehind : m.skipSpace.rest <:+ c.rest := (skipSpace_suffix m).trans (hvalue hitem)
      rcases h with ⟨hclose, rfl, -⟩ | ⟨-, h⟩
      · exact (upTo_skip hclose).of_suffix hbehind
      · exact (hitems h).of_suffix ((hopen _).trans hbehind)

/-- An object or an array is read up to its closing mark. -/
theorem upTo_of_readValue {fuel : Nat} {c d : Cursor} {value : Value}
    (h : readValue fuel c = .ok (value, d))
    (hstart : c.rest.head? = some '\x7b' ∨ c.rest.head? = some '[') :
    UpTo '\x7d' c d ∨ UpTo ']' c d := by
  cases fuel with
  | zero => exact nomatch h
  | succ fuel =>
    have hopen : (c.skip 1).skipSpace.rest <:+ c.rest :=
      (skipSpace_suffix _).trans (skip_suffix 1 c)
    rcases readValue_eq_ok.1 h with ⟨hquote, -⟩ | ⟨-, h⟩ | ⟨-, h⟩ | ⟨-, hbrace, hbracket, -⟩
    · rw [hquote] at hstart
      exact absurd hstart (by decide)
    · left
      split at h
      next hclose => exact h.2 ▸ (upTo_skip hclose).of_suffix hopen
      next => exact ((upTo_of_reads fuel).2.1 h).of_suffix hopen
    · right
      split at h
      next hclose => exact h.2 ▸ (upTo_skip hclose).of_suffix hopen
      next => exact ((upTo_of_reads fuel).2.2 h).of_suffix hopen
    · exact absurd hstart (not_or.2 ⟨hbrace, hbracket⟩)

end SchemaCompiler.Json
