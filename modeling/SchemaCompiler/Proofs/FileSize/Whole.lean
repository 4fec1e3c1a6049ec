import SchemaCompiler.Proofs.FileSize.Reading

/-!
# File sizes without a fraction

Digits with a unit after them are a whole number of bytes, and the same size can be given as a
number.  The text and the number mean the same as long as double precision has room for the digits
and for the half that is added to round: a size of 53 bits and no unit is one too large if it is
odd, and beyond that the digits themselves are rounded.

* `wholeBytes`, `wholeBytes_eq_iff` — how many bytes the text means, and when the number means as
  many;
* `parse_digits` — **when the text and the number are the same size**;
* `parse_oddTie` — a text and a number that are not.
-/

namespace SchemaCompiler.FileSize

open Number Number.Binary64 Text

/-- The half that is added to round is a tie, and the next even number of bytes is above. -/
def OddTie (n power : Nat) : Prop := power = 0 ∧ 2 ^ 52 ≤ n ∧ n < 2 ^ 53 ∧ n % 2 = 1

instance (n power : Nat) : Decidable (OddTie n power) :=
  inferInstanceAs (Decidable (_ ∧ _))

section Digits

variable {digits unit : List Char} {power : Nat}

theorem quantity_digits : Parts.quantity ⟨digits, [], unit⟩ = numberOf digits := by
  rw [Parts.quantity, List.append_nil, List.length_nil, pow_zero, div_one]

theorem tooLarge_digits :
    Parts.TooLarge ⟨digits, [], unit⟩ power ↔ limit ≤ numberOf digits * 1024 ^ power := by
  rw [Parts.TooLarge, List.append_nil, List.length_nil, pow_zero, mul_one]

/-- A multiple of a unit is even, so that only bytes without a unit can be a tie. -/
theorem oddTie_iff (n power : Nat) :
    (2 ^ 52 ≤ nearestWhole n * 1024 ^ power ∧ nearestWhole n * 1024 ^ power < 2 ^ 53 ∧
      nearestWhole n * 1024 ^ power % 2 = 1) ↔ OddTie n power := by
  cases power with
  | zero =>
    rw [pow_zero, mul_one]
    rcases lt_or_ge n (2 ^ 53) with hlt | hle
    · rw [nearestWhole_of_lt hlt]
      exact ⟨fun h => ⟨rfl, h⟩, fun h => h.2⟩
    · have heven := Nat.even_iff.1 (even_nearestWhole hle)
      exact ⟨fun h => absurd h.2.2 (by omega), fun h => absurd h.2.2.1 (by omega)⟩
  | succ power =>
    refine ⟨fun h => absurd h.2.2 ?_, fun h => absurd h.1 (Nat.succ_ne_zero power)⟩
    rw [pow_succ, ← mul_assoc]
    omega

/-- How many bytes a text is read as whose number is whole, if it is not too large. -/
def wholeBytes (n power : Nat) : Nat :=
  if OddTie n power then n + 1 else nearestWhole n * 1024 ^ power

/-- These are as many as the number says if its digits stay as they are and the half is lost. -/
theorem wholeBytes_eq_iff (n power : Nat) : wholeBytes n power = n * 1024 ^ power ↔
    (∃ m e : Nat, m < 2 ^ 53 ∧ n = m * 2 ^ e) ∧ ¬OddTie n power := by
  rw [wholeBytes, ← nearestWhole_eq_iff]
  split
  next htie =>
    refine ⟨fun h => absurd h ?_, fun h => absurd htie h.2⟩
    rw [htie.1, pow_zero, mul_one]
    exact Nat.succ_ne_self n
  next htie =>
    rw [Nat.mul_left_inj (by positivity)]
    exact ⟨fun h => ⟨h, htie⟩, fun h => h.1⟩

theorem Parts.bytes_digits (hunit : UnitPower unit power)
    (h : numberOf digits * 1024 ^ power < limit) :
    Parts.bytes ⟨digits, [], unit⟩ = .ok (wholeBytes (numberOf digits) power) := by
  have hbinary : nearestWhole (numberOf digits) * 1024 ^ power =
      nearestWhole (numberOf digits) * 2 ^ (10 * power) := by
    rw [pow_mul]
    norm_num
  have hkept := nearest_nearestWhole_mul (numberOf digits) (10 * power)
  rw [← hbinary] at hkept
  have hcast : nearest (numberOf digits) * 1024 ^ power =
      ((nearestWhole (numberOf digits) * 1024 ^ power : ℕ) : ℚ) := by
    rw [← cast_nearestWhole]
    push_cast
    rfl
  rw [Parts.bytes_of_not_tooLarge hunit (mt tooLarge_digits.1 (Nat.not_le.2 h)), quantity_digits,
    hcast, floor_nearest_add_half hkept, wholeBytes]
  simp only [oddTie_iff]
  split
  next htie =>
    obtain ⟨rfl, -, hlt, -⟩ := htie
    rw [pow_zero, mul_one, nearestWhole_of_lt hlt]
  next => rfl

/-- **Digits with a unit and the number they stand for.**  The text is refused if the size is too
large to be computed, and is else a size of `wholeBytes`.  It means the same as the number exactly
if it is not refused, the digits have at most 53 significant bits, and the half that is added to
round is not a tie with an even number above. -/
theorem parse_digits (hne : digits ≠ []) (hdigits : ∀ c ∈ digits, isDigit c = true)
    (hunit : UnitPower unit power) :
    parse (.text (String.ofList (digits ++ unit))) =
      (if numberOf digits * 1024 ^ power < limit then
        .ok (some (wholeBytes (numberOf digits) power))
      else .error (.misuse .outOfRange)) ∧
    parse (.int (numberOf digits * 1024 ^ power)) =
      .ok (some (numberOf digits * 1024 ^ power)) ∧
    (parse (.text (String.ofList (digits ++ unit))) =
        parse (.int (numberOf digits * 1024 ^ power)) ↔
      numberOf digits * 1024 ^ power < limit ∧
        (∃ m e : Nat, m < 2 ^ 53 ∧ numberOf digits = m * 2 ^ e) ∧
        ¬OddTie (numberOf digits) power) := by
  have hspelled := spelled_digits hne hdigits hunit
  rw [← String.toList_ofList (l := digits ++ unit)] at hspelled
  have hbytes : numberOf digits * 1024 ^ power < limit →
      parse (.text (String.ofList (digits ++ unit))) =
        .ok (some (wholeBytes (numberOf digits) power)) := by
    intro hsmall
    rw [parse_of_spelled hspelled, Parts.bytes_digits hunit hsmall]
    rfl
  have hrefused : limit ≤ numberOf digits * 1024 ^ power →
      parse (.text (String.ofList (digits ++ unit))) = .error (.misuse .outOfRange) :=
    fun hlarge => parse_of_tooLarge hspelled hunit (tooLarge_digits.2 hlarge)
  refine ⟨?_, rfl, ?_⟩
  · split
    next hsmall => exact hbytes hsmall
    next hlarge => exact hrefused (Nat.not_lt.1 hlarge)
  · rw [← wholeBytes_eq_iff]
    rcases Nat.lt_or_ge (numberOf digits * 1024 ^ power) limit with hsmall | hlarge
    · rw [hbytes hsmall, parse, Except.ok.injEq, Option.some.injEq, and_iff_right hsmall]
      norm_cast
    · rw [hrefused hlarge, parse]
      exact iff_of_false (by simp) fun h => absurd h.1 (Nat.not_lt.2 hlarge)

/-- Five hundred and twelve kilobytes are the same in both forms. -/
theorem parse_halfMegabyte :
    ("512".toList ≠ [] ∧ (∀ c ∈ "512".toList, isDigit c = true) ∧ UnitPower "kB".toList 1) ∧
      parse (.text "512kB") = parse (.int 524288) := by
  have hdigits : ∀ c ∈ "512".toList, isDigit c = true :=
    List.all_eq_true.1 (by decide +kernel)
  have hunit : UnitPower "kB".toList 1 := Or.inr (by decide +kernel)
  have htext : String.ofList ("512".toList ++ "kB".toList) = "512kB" := by decide
  have hnumber : numberOf "512".toList = 512 := by decide +kernel
  have hbytes : ((512 : Nat) : Int) * 1024 ^ 1 = 524288 := by norm_num
  have hsmall : 512 * 1024 ^ 1 < limit := by
    unfold limit
    decide +kernel
  have hagrees := (parse_digits (by decide) hdigits hunit).2.2
  rw [htext, hnumber, hbytes] at hagrees
  exact ⟨⟨by decide, hdigits, hunit⟩,
    hagrees.2 ⟨hsmall, ⟨512, 0, by norm_num, by norm_num⟩, by decide⟩⟩

end Digits

/-- The first number of bytes that is one too large as a text. -/
theorem parse_oddTie :
    parse (.text "4503599627370497") = .ok (some 4503599627370498) ∧
      parse (.int 4503599627370497) = .ok (some 4503599627370497) := by
  decide +kernel

end SchemaCompiler.FileSize
