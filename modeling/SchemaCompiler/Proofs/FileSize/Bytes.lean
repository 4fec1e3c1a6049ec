import SchemaCompiler.Proofs.FileSize.Form
import SchemaCompiler.Proofs.Number.Binary64
import SchemaCompiler.Proofs.Sql.Default

/-!
# How many bytes a file size is

A size is computed in double precision, so that it may be too large, and then it is refused.  One
that is not is far from having too many digits to be written.

* `Parts.TooLarge` — when a size is too large;
* `Parts.bytes_of_tooLarge`, `Parts.bytes_of_not_tooLarge` — **how many bytes a size is**;
* `parse_of_kelvinSign`, `parse_of_tooLarge`, `parse_of_not_tooLarge` — what a text of the form of a
  size stands for;
* `natAbs_lt_of_parse` — it has few digits.
-/

namespace SchemaCompiler.FileSize

open Number Number.Binary64 Text

/-! ### Bytes -/

/-- The number before the unit. -/
def Parts.quantity (p : Parts) : ℚ := numberOf (p.whole ++ p.fraction) / 10 ^ p.fraction.length

/-- The size is too large to be computed in double precision. -/
def Parts.TooLarge (p : Parts) (power : Nat) : Prop :=
  limit * 10 ^ p.fraction.length ≤ numberOf (p.whole ++ p.fraction) * 1024 ^ power

variable {p : Parts} {power : Nat}

theorem Parts.quantity_nonneg (p : Parts) : 0 ≤ p.quantity := by
  unfold quantity
  positivity

/-- A size is too large where its number, rounded and multiplied by the unit, is. -/
theorem Parts.tooLarge_iff (hpower : power ≤ 4) :
    p.TooLarge power ↔ 2 ^ (1024 : ℤ) ≤ nearest p.quantity * 2 ^ (10 * power) := by
  have hpos : (0 : ℚ) < 10 ^ p.fraction.length := by positivity
  rw [le_nearest_mul_iff p.quantity_nonneg (by omega), quantity, div_mul_eq_mul_div,
    le_div_iff₀ hpos, pow_mul, TooLarge, ← Nat.cast_le (α := ℚ)]
  norm_num

/-- The size in bytes, with a number that is what some quantity is rounded to. -/
theorem Parts.bytes_eq (hunit : UnitPower p.unit power) :
    p.bytes = match (((ofDecimal false (numberOf (p.whole ++ p.fraction))
        (-p.fraction.length)).scale (10 * power)).addHalf).truncate with
      | some n => .ok n
      | none => .error (.misuse .outOfRange) := by
  rw [bytes, unitShift_of_unitPower hunit]
  rfl

theorem Parts.bytes_of_tooLarge (hunit : UnitPower p.unit power) (h : p.TooLarge power) :
    p.bytes = .error (.misuse .outOfRange) := by
  have hnumber := isNearest_ofDecimal (numberOf (p.whole ++ p.fraction)) p.fraction.length
  rw [tooLarge_iff hunit.le] at h
  rw [bytes_eq hunit]
  rcases lt_or_ge (nearest p.quantity) (2 ^ (1024 : ℤ)) with hlt | hle
  · have hvalue := hnumber.hasValue hlt
    have hscaled := isNearest_scale hvalue (10 * power)
    rw [hscaled.infinite (by rwa [hvalue.nearest_mul_pow])]
    rfl
  · rw [hnumber.infinite hle]
    rfl

theorem units_pow (power : Nat) : (1024 : ℚ) ^ power = 2 ^ (10 * power) := by
  rw [pow_mul]
  norm_num

/-- The number of a size that is not too large, rounded and multiplied by the unit. -/
theorem Parts.hasValue_scale (hunit : UnitPower p.unit power) (h : ¬p.TooLarge power) :
    ((ofDecimal false (numberOf (p.whole ++ p.fraction)) (-p.fraction.length)).scale
        (10 * power)).HasValue (nearest p.quantity * 1024 ^ power) ∧
      nearest p.quantity * 1024 ^ power < 2 ^ (1024 : ℤ) := by
  have hnumber := isNearest_ofDecimal (numberOf (p.whole ++ p.fraction)) p.fraction.length
  rw [tooLarge_iff hunit.le, not_le] at h
  have hlt : nearest p.quantity < 2 ^ (1024 : ℤ) := by
    have hone : (1 : ℚ) ≤ 2 ^ (10 * power) := one_le_pow₀ one_le_two
    have hnonneg := nearest_nonneg p.quantity_nonneg
    exact lt_of_le_of_lt (le_mul_of_one_le_right hnonneg hone) h
  have hvalue := hnumber.hasValue hlt
  have hscaled := (isNearest_scale hvalue (10 * power)).hasValue (by rwa [hvalue.nearest_mul_pow])
  rw [hvalue.nearest_mul_pow] at hscaled
  rw [units_pow]
  exact ⟨hscaled, h⟩

theorem Parts.bytes_of_not_tooLarge (hunit : UnitPower p.unit power) (h : ¬p.TooLarge power) :
    p.bytes = .ok ⌊nearest (nearest p.quantity * 1024 ^ power + 1 / 2)⌋₊ := by
  obtain ⟨hscaled, hlt⟩ := hasValue_scale hunit h
  have hhalf := (isNearest_addHalf hscaled).hasValue (hscaled.nearest_add_half_lt hlt)
  rw [bytes_eq hunit, truncate_eq hhalf]

theorem Parts.floor_lt (hunit : UnitPower p.unit power) (h : ¬p.TooLarge power) :
    ⌊nearest (nearest p.quantity * 1024 ^ power + 1 / 2)⌋₊ < 2 ^ 1024 := by
  obtain ⟨hscaled, hlt⟩ := hasValue_scale hunit h
  have hnonneg : (0 : ℚ) ≤ nearest (nearest p.quantity * 1024 ^ power + 1 / 2) :=
    nearest_nonneg (add_nonneg hscaled.nonneg (by norm_num))
  rw [Nat.floor_lt hnonneg]
  exact_mod_cast hscaled.nearest_add_half_lt hlt

/-! ### Texts -/

theorem parse_of_not_spelled {s : String}
    (h : ¬∃ p : Parts, p.Spelled (stripWhere isBlank s.toList)) : parse (.text s) = .ok none := by
  have hnone : readText (stripWhere isBlank s.toList) = none :=
    Option.eq_none_iff_forall_ne_some.2 fun p hp => h ⟨p, readText_eq_some_iff.1 hp⟩
  rw [parse, hnone]

section Spelled

variable {s : String} (h : p.Spelled (stripWhere isBlank s.toList))
include h

theorem parse_of_spelled : parse (.text s) = p.bytes.map fun n : Nat => some (n : Int) := by
  rw [parse, readText_eq_some_iff.2 h]
  dsimp only
  cases p.bytes <;> rfl

theorem parse_of_kelvinSign (hunit : kelvinSign ∈ p.unit) :
    parse (.text s) = .error (.misuse .noSuchEntry) := by
  rw [parse_of_spelled h, Parts.bytes, unitShift_of_kelvinSign hunit]
  rfl

theorem parse_of_tooLarge (hunit : UnitPower p.unit power) (hlarge : p.TooLarge power) :
    parse (.text s) = .error (.misuse .outOfRange) := by
  rw [parse_of_spelled h, Parts.bytes_of_tooLarge hunit hlarge]
  rfl

theorem parse_of_not_tooLarge (hunit : UnitPower p.unit power) (hlarge : ¬p.TooLarge power) :
    parse (.text s) = .ok (some ⌊nearest (nearest p.quantity * 1024 ^ power + 1 / 2)⌋₊) := by
  rw [parse_of_spelled h, Parts.bytes_of_not_tooLarge hunit hlarge]
  rfl

/-- The unit of a size of this form is in disguise or known, and then the size is too large or
not. -/
theorem spelled_cases : kelvinSign ∈ p.unit ∨
    ∃ power, UnitPower p.unit power ∧ (p.TooLarge power ∨ ¬p.TooLarge power) := by
  by_cases hkelvin : kelvinSign ∈ p.unit
  · exact Or.inl hkelvin
  · obtain ⟨power, hunit⟩ := exists_unitPower h.unit hkelvin
    exact Or.inr ⟨power, hunit, Classical.em _⟩

end Spelled

/-! ### Digits -/

/-- A size in bytes has few digits. -/
theorem natAbs_lt_of_parse {s : String} {n : Int} (h : parse (.text s) = .ok (some n)) :
    n.natAbs < 10 ^ maxDigits := by
  by_cases hform : ∃ p : Parts, p.Spelled (stripWhere isBlank s.toList)
  · obtain ⟨p, hp⟩ := hform
    rcases spelled_cases hp with hkelvin | ⟨power, hunit, hlarge | hlarge⟩
    · exact nomatch h.symm.trans (parse_of_kelvinSign hp hkelvin)
    · exact nomatch h.symm.trans (parse_of_tooLarge hp hunit hlarge)
    · have hsize := h.symm.trans (parse_of_not_tooLarge hp hunit hlarge)
      obtain rfl := Option.some.inj (Except.ok.inj hsize)
      have hdigits : 1024 ≤ maxDigits := by decide
      calc (⌊nearest (nearest p.quantity * 1024 ^ power + 1 / 2)⌋₊ : Int).natAbs
          = ⌊nearest (nearest p.quantity * 1024 ^ power + 1 / 2)⌋₊ := Int.natAbs_natCast _
        _ < 2 ^ 1024 := Parts.floor_lt hunit hlarge
        _ ≤ 2 ^ maxDigits := pow_le_pow_right₀ one_le_two hdigits
        _ ≤ 10 ^ maxDigits := Nat.pow_le_pow_left (by decide) maxDigits
  · exact nomatch h.symm.trans (parse_of_not_spelled hform)

end SchemaCompiler.FileSize
