import Mathlib.Algebra.Order.Floor.Semifield
import Mathlib.Tactic.FieldSimp
import SchemaCompiler.Number.Binary64
import SchemaCompiler.Proofs.Number.Rounding

/-!
# What double-precision numbers compute

Every operation gives the number nearest to the exact result, or an infinite one where that is
`2 ^ 1024` or more.

* `HasValue`, `IsNearest` — the value of a number, and that it is what a quantity is rounded to;
* `isNearest_ofRatio`, `isNearest_ofDecimal` — **quotients and decimal digits are made the number
  nearest to them**;
* `isNearest_scale`, `isNearest_addHalf`, `truncate_eq` — so are the results of the operations, and
  a whole part is exact.
-/

namespace SchemaCompiler.Number.Binary64

/-- The number is finite and not negative, and has a value. -/
inductive HasValue : Binary64 → ℚ → Prop
  | finite {m : ℕ} {e : ℤ} (hm : m < 2 ^ 53) (he : -1074 ≤ e) :
    HasValue (.finite false m e) (m * 2 ^ e)

/-- The number is what a quantity is rounded to. -/
structure IsNearest (x : Binary64) (q : ℚ) : Prop where
  hasValue : nearest q < 2 ^ (1024 : ℤ) → x.HasValue (nearest q)
  infinite : 2 ^ (1024 : ℤ) ≤ nearest q → x = .infinite false

theorem HasValue.nonneg {x : Binary64} {v : ℚ} (h : x.HasValue v) : 0 ≤ v := by
  cases h
  positivity

theorem HasValue.nearest_eq {x : Binary64} {v : ℚ} (h : x.HasValue v) : nearest v = v := by
  cases h with
  | finite hm he => exact nearest_mul_zpow hm he

/-- A number times a power of two is exact. -/
theorem HasValue.nearest_mul_pow {x : Binary64} {v : ℚ} (h : x.HasValue v) (k : ℕ) :
    nearest (v * 2 ^ k) = v * 2 ^ k := by
  cases h with
  | @finite m e hm he =>
    have hshift : (m : ℚ) * 2 ^ e * 2 ^ k = m * 2 ^ (e + k) := by
      rw [zpow_add₀ two_ne_zero, zpow_natCast, mul_assoc]
    rw [hshift]
    exact nearest_mul_zpow hm (by omega)

/-- One half more does not make a number too large. -/
theorem HasValue.nearest_add_half_lt {x : Binary64} {v : ℚ} (h : x.HasValue v)
    (hv : v < 2 ^ (1024 : ℤ)) : nearest (v + 1 / 2) < 2 ^ (1024 : ℤ) := by
  have hnonneg := h.nonneg
  have hbelow : v < limit := by
    rwa [← h.nearest_eq, ← not_le, le_nearest_iff hnonneg, not_le] at hv
  rw [← not_le, le_nearest_iff (by positivity), not_le]
  cases h with
  | @finite m e hm he =>
    rcases lt_or_ge e 0 with hneg | hpos
    · have hsmall : (m : ℚ) * 2 ^ e < 2 ^ (53 : ℤ) :=
        lt_of_lt_of_le (mul_zpow_lt hm e) (zpow_le_zpow_right₀ one_le_two (by omega))
      have hroom : (2 : ℚ) ^ (53 : ℤ) + 1 ≤ limit := by exact_mod_cast pow_add_one_le_limit
      linarith
    · -- A whole number below a whole number is at least one below it.
      obtain ⟨k, rfl⟩ := Int.eq_ofNat_of_zero_le hpos
      rw [zpow_natCast] at hbelow ⊢
      have hwhole : m * 2 ^ k + 1 ≤ limit := by exact_mod_cast hbelow
      have hcast : (m : ℚ) * 2 ^ k + 1 ≤ limit := by exact_mod_cast hwhole
      linarith

theorem hasValue_zero : HasValue (.finite false 0 (-1074)) 0 := by
  have h := HasValue.finite (m := 0) (e := -1074) (by norm_num) le_rfl
  rwa [Nat.cast_zero, zero_mul] at h

/-- The number zero is what no quantity is rounded to. -/
theorem isNearest_zero {q : ℚ} (h : nearest q = 0) : IsNearest (.finite false 0 (-1074)) q := by
  constructor
  · intro _
    rw [h]
    exact hasValue_zero
  · intro hle
    rw [h] at hle
    exact absurd hle (not_le.2 (by positivity))

/-! ### Quotients -/

section DividedByPower

variable {base : ℕ} (num den : ℕ) (e : ℤ)

theorem dividedByPower_pos (hbase : 0 < base) (hden : 0 < den) :
    0 < (dividedByPower base num den e).2 := by
  unfold dividedByPower
  split
  · exact Nat.mul_pos hden (Nat.pow_pos hbase)
  · exact hden

theorem dividedByPower_div (hbase : 0 < base) :
    ((dividedByPower base num den e).1 : ℚ) / (dividedByPower base num den e).2 =
      num / den / base ^ e := by
  have hpos : (0 : ℚ) < base := by exact_mod_cast hbase
  unfold dividedByPower
  split
  next he =>
    obtain ⟨k, rfl⟩ := Int.eq_ofNat_of_zero_le he
    rw [Int.toNat_natCast, Nat.pow_eq, zpow_natCast, div_div]
    push_cast
    rfl
  next he =>
    obtain ⟨k, hk⟩ := Int.eq_ofNat_of_zero_le (show 0 ≤ -e by omega)
    obtain rfl : e = -(k : ℤ) := by omega
    rw [neg_neg, Int.toNat_natCast, Nat.pow_eq, zpow_neg, zpow_natCast, div_inv_eq_mul,
      div_mul_eq_mul_div]
    push_cast
    rfl

theorem dividedByPower_two :
    ((dividedByPower 2 num den e).1 : ℚ) / (dividedByPower 2 num den e).2 = num / den / 2 ^ e := by
  have hvalue := dividedByPower_div num den e two_pos
  rwa [Nat.cast_ofNat] at hvalue

end DividedByPower

theorem roundHalfEven_eq (num : ℕ) {den : ℕ} (hden : 0 < den) :
    (roundHalfEven num den : ℤ) = halfEven ((num : ℚ) / den) := by
  have hpos : (0 : ℚ) < den := by exact_mod_cast hden
  have hbelow : ((num % den : ℕ) : ℚ) / den < 1 / 2 ↔ 2 * (num % den) < den := by
    rw [div_lt_div_iff₀ hpos two_pos, one_mul, mul_comm]
    exact_mod_cast Iff.rfl
  have habove : 1 / 2 < ((num % den : ℕ) : ℚ) / den ↔ den < 2 * (num % den) := by
    rw [div_lt_div_iff₀ two_pos hpos, one_mul, mul_comm]
    exact_mod_cast Iff.rfl
  have heven : Even ((num : ℤ) / den) ↔ num / den % 2 = 0 := by
    rw [← Int.natCast_ediv, Int.even_coe_nat, Nat.even_iff]
  rw [roundHalfEven, halfEven, Int.fract_div_natCast_eq_div_natCast_mod,
    Rat.floor_natCast_div_natCast]
  simp only [hbelow, habove, heven]
  split_ifs <;> rfl

/-- The powers of two around a quotient. -/
theorem log_div_cases {num den : ℕ} (hnum : 0 < num) (hden : 0 < den) :
    Int.log 2 ((num : ℚ) / den) = num.log2 - den.log2 ∨
      Int.log 2 ((num : ℚ) / den) = num.log2 - den.log2 - 1 := by
  have hq : (0 : ℚ) < num / den := by positivity
  have hpos : (0 : ℚ) < den := by exact_mod_cast hden
  have hnumle : (2 : ℚ) ^ (num.log2 : ℤ) ≤ num := by
    exact_mod_cast Nat.log2_self_le hnum.ne'
  have hnumlt : (num : ℚ) < 2 ^ ((num.log2 : ℤ) + 1) := by exact_mod_cast Nat.lt_log2_self
  have hdenle : (2 : ℚ) ^ (den.log2 : ℤ) ≤ den := by
    exact_mod_cast Nat.log2_self_le hden.ne'
  have hdenlt : (den : ℚ) < 2 ^ ((den.log2 : ℤ) + 1) := by exact_mod_cast Nat.lt_log2_self
  have hle : (2 : ℚ) ^ ((num.log2 : ℤ) - den.log2 - 1) ≤ num / den := by
    rw [le_div_iff₀ hpos]
    calc (2 : ℚ) ^ ((num.log2 : ℤ) - den.log2 - 1) * den
        ≤ 2 ^ ((num.log2 : ℤ) - den.log2 - 1) * 2 ^ ((den.log2 : ℤ) + 1) := by gcongr
      _ = 2 ^ (num.log2 : ℤ) := by rw [← zpow_add₀ two_ne_zero]; ring_nf
      _ ≤ num := hnumle
  have hlt : (num : ℚ) / den < 2 ^ ((num.log2 : ℤ) - den.log2 + 1) := by
    rw [div_lt_iff₀ hpos]
    calc (num : ℚ) < 2 ^ ((num.log2 : ℤ) + 1) := hnumlt
      _ = 2 ^ ((num.log2 : ℤ) - den.log2 + 1) * 2 ^ (den.log2 : ℤ) := by
        rw [← zpow_add₀ two_ne_zero]; ring_nf
      _ ≤ 2 ^ ((num.log2 : ℤ) - den.log2 + 1) * den := by gcongr
  have hlower := (Int.zpow_le_iff_le_log (b := 2) one_lt_two hq).1 hle
  have hupper := (Int.lt_zpow_iff_log_lt (b := 2) one_lt_two hq).1 hlt
  omega

/-- Whether a quotient, divided by a power of two, has a whole part of fewer than 53 bits. -/
theorem dividedByPower_lt_iff {num den : ℕ} (hnum : 0 < num) (hden : 0 < den) (e : ℤ) :
    (dividedByPower 2 num den e).1 / (dividedByPower 2 num den e).2 < 2 ^ 52 ↔
      Int.log 2 ((num : ℚ) / den) < e + 52 := by
  have hq : (0 : ℚ) < num / den := by positivity
  have hpos := dividedByPower_pos num den e two_pos hden
  have hcast : (0 : ℚ) < (dividedByPower 2 num den e).2 := by exact_mod_cast hpos
  have hlog := Int.lt_zpow_iff_log_lt (b := 2) one_lt_two (x := e + 52) hq
  rw [← hlog, Nat.cast_ofNat, add_comm, zpow_add₀ two_ne_zero, ← div_lt_iff₀ (by positivity),
    ← dividedByPower_two, div_lt_iff₀ hcast, Nat.div_lt_iff_lt_mul hpos]
  exact_mod_cast Iff.rfl

theorem gridExponent_eq {num den : ℕ} (hnum : 0 < num) (hden : 0 < den) :
    gridExponent num den = grid ((num : ℚ) / den) := by
  have hbits := dividedByPower_lt_iff hnum hden (num.log2 - den.log2 - 52)
  unfold gridExponent grid
  simp only [Nat.pow_eq, hbits]
  rcases log_div_cases hnum hden with hlog | hlog <;> rw [hlog] <;> split_ifs <;> omega

/-- A number in its normal form, or an infinite one in the place of what is too large. -/
theorem isNearest_normal {q : ℚ} {m : ℕ} {e : ℤ} (hm : m < 2 ^ 53) (he : -1074 ≤ e)
    (hbits : -1074 < e → 2 ^ 52 ≤ m) (hq : nearest q = m * 2 ^ e) :
    IsNearest (if 971 < e then .infinite false else .finite false m e) q := by
  split
  next hlarge =>
    have hle : (2 : ℚ) ^ (1024 : ℤ) ≤ nearest q := by
      have hfull : 2 ^ 52 ≤ m := hbits (by omega)
      have hcast : (2 : ℚ) ^ (52 : ℤ) ≤ m := by exact_mod_cast hfull
      calc (2 : ℚ) ^ (1024 : ℤ) ≤ 2 ^ (52 + e) := zpow_le_zpow_right₀ one_le_two (by omega)
        _ = 2 ^ (52 : ℤ) * 2 ^ e := zpow_add₀ two_ne_zero _ _
        _ ≤ m * 2 ^ e := by gcongr
        _ = nearest q := hq.symm
    exact ⟨fun hlt => absurd hle (not_le.2 hlt), fun _ => rfl⟩
  next hsmall =>
    have hlt : nearest q < (2 : ℚ) ^ (1024 : ℤ) := by
      rw [hq]
      exact lt_of_lt_of_le (mul_zpow_lt hm e) (zpow_le_zpow_right₀ one_le_two (by omega))
    refine ⟨fun _ => ?_, fun hle => absurd hlt (not_lt.2 hle)⟩
    rw [hq]
    exact .finite hm he

/-- **A quotient is made the number nearest to it.** -/
theorem isNearest_ofRatio (num : ℕ) {den : ℕ} (hden : 0 < den) :
    IsNearest (ofRatio false num den) ((num : ℚ) / den) := by
  rcases Nat.eq_zero_or_pos num with rfl | hnum
  · rw [Nat.cast_zero, zero_div, ofRatio, if_pos rfl]
    exact isNearest_zero nearest_zero
  · have hq : (0 : ℚ) < num / den := by positivity
    obtain ⟨m, hround, hnearest, hle, hbits⟩ := exists_nearest_eq hq
    have hm : roundHalfEven (dividedByPower 2 num den (grid ((num : ℚ) / den))).1
        (dividedByPower 2 num den (grid ((num : ℚ) / den))).2 = m := by
      rw [← dividedByPower_two, ← roundHalfEven_eq _ (dividedByPower_pos _ _ _ two_pos hden)]
        at hround
      exact_mod_cast hround
    rw [ofRatio, if_neg hnum.ne', gridExponent_eq hnum hden]
    simp only [hm, Nat.pow_eq]
    have hleast := neg_le_grid ((num : ℚ) / den)
    rcases hle.lt_or_eq with hlt | hcarry
    · rw [if_neg hlt.ne]
      exact isNearest_normal hlt hleast hbits hnearest
    · rw [if_pos hcarry]
      refine isNearest_normal (by norm_num) (by omega) (fun _ => le_rfl) ?_
      rw [hnearest, hcarry, zpow_add_one₀ two_ne_zero]
      push_cast
      ring

/-! ### Operations -/

section Operations

variable {x : Binary64} {v : ℚ}

theorem isNearest_scale (h : x.HasValue v) (k : ℕ) : IsNearest (x.scale k) (v * 2 ^ k) := by
  cases h with
  | @finite m e =>
    have hratio := isNearest_ofRatio (dividedByPower 2 m 1 (-(e + k))).1
      (dividedByPower_pos m 1 (-(e + k)) two_pos one_pos)
    have hexact : (m : ℚ) / 1 / 2 ^ (-(e + k)) = m * 2 ^ e * 2 ^ k := by
      rw [div_one, zpow_neg, div_inv_eq_mul, zpow_add₀ two_ne_zero, zpow_natCast, mul_assoc]
    rw [dividedByPower_two, Nat.cast_one, hexact] at hratio
    exact hratio

theorem isNearest_addHalf (h : x.HasValue v) : IsNearest x.addHalf (v + 1 / 2) := by
  cases h with
  | @finite m e =>
    have hden := dividedByPower_pos m 1 (-e) two_pos one_pos
    have hratio := isNearest_ofRatio (2 * (dividedByPower 2 m 1 (-e)).1 +
      (dividedByPower 2 m 1 (-e)).2) (Nat.mul_pos two_pos hden)
    have hvalue := dividedByPower_two m 1 (-e)
    rw [Nat.cast_one, div_one, zpow_neg, div_inv_eq_mul] at hvalue
    have hden' : ((dividedByPower 2 m 1 (-e)).2 : ℚ) ≠ 0 := by exact_mod_cast hden.ne'
    have hexact : ((2 * (dividedByPower 2 m 1 (-e)).1 + (dividedByPower 2 m 1 (-e)).2 : ℕ) : ℚ) /
        (2 * (dividedByPower 2 m 1 (-e)).2 : ℕ) = m * 2 ^ e + 1 / 2 := by
      rw [← hvalue]
      push_cast
      field_simp
    rw [hexact] at hratio
    exact hratio

/-- The whole part of a number is exact. -/
theorem truncate_eq (h : x.HasValue v) : x.truncate = some ⌊v⌋₊ := by
  cases h with
  | @finite m e =>
    have hvalue := dividedByPower_two m 1 (-e)
    rw [Nat.cast_one, div_one, zpow_neg, div_inv_eq_mul] at hvalue
    rw [← hvalue, Nat.floor_div_eq_div]
    rfl

end Operations

/-! ### Decimal digits -/

/-- The powers of ten around a number that is written with so many digits. -/
theorem pow_length_toDigits {n : ℕ} (hn : n ≠ 0) :
    ∃ k : ℕ, (Nat.toDigits 10 n).length = k + 1 ∧ 10 ^ k ≤ n ∧ n < 10 ^ (k + 1) := by
  have hpos : 0 < (Nat.toDigits 10 n).length :=
    List.length_pos_iff.2 (Nat.toDigits_ne_nil)
  obtain ⟨k, hk⟩ := Nat.exists_eq_succ_of_ne_zero hpos.ne'
  refine ⟨k, hk, ?_, ?_⟩
  · rcases Nat.eq_zero_or_pos k with rfl | hkpos
    · omega
    · by_contra hlt
      have hle := (Nat.length_toDigits_le_iff (n := n) (b := 10) (by norm_num) hkpos).2 (by omega)
      omega
  · exact (Nat.length_toDigits_le_iff (n := n) (b := 10) (by norm_num) (by omega)).1 hk.le

theorem ten_zpow_le : (10 : ℚ) ^ (-331 : ℤ) ≤ 2 ^ (-1075 : ℤ) := by
  have hpowers : 2 ^ 1075 ≤ 10 ^ 331 := by decide +kernel
  rw [zpow_neg, zpow_neg, inv_le_inv₀ (by positivity) (by positivity)]
  exact_mod_cast hpowers

theorem le_ten_zpow : (2 : ℚ) ^ (1024 : ℤ) ≤ 10 ^ (310 : ℤ) := by
  have hpowers : 2 ^ 1024 ≤ 10 ^ 310 := by decide +kernel
  exact_mod_cast hpowers

/-- **Decimal digits are made the number nearest to them.** -/
theorem isNearest_ofDecimal (digits places : ℕ) :
    IsNearest (ofDecimal false digits (-places)) ((digits : ℚ) / 10 ^ places) := by
  by_cases hdigits : digits = 0
  · rw [hdigits, ofDecimal, if_pos (Or.inl rfl), Nat.cast_zero, zero_div]
    exact isNearest_zero nearest_zero
  · obtain ⟨k, hlength, hle, hlt⟩ := pow_length_toDigits hdigits
    have hq : (0 : ℚ) < digits / 10 ^ places := by positivity
    have hscale (j : ℕ) : (10 : ℚ) ^ ((j : ℤ) - places) = 10 ^ j / 10 ^ places := by
      rw [zpow_sub₀ (by norm_num), zpow_natCast, zpow_natCast]
    have hlower : (10 : ℚ) ^ ((k : ℤ) - places) ≤ digits / 10 ^ places := by
      rw [hscale]
      gcongr
      exact_mod_cast hle
    have hupper : (digits : ℚ) / 10 ^ places < 10 ^ (((k + 1 : ℕ) : ℤ) - places) := by
      rw [hscale]
      gcongr
      exact_mod_cast hlt
    rw [ofDecimal, hlength]
    split_ifs with htiny hhuge
    · have hexponent : ((k + 1 : ℕ) : ℤ) - places ≤ -331 := by omega
      refine isNearest_zero (nearest_eq_zero hq ?_)
      calc (digits : ℚ) / 10 ^ places < 10 ^ (((k + 1 : ℕ) : ℤ) - places) := hupper
        _ ≤ 10 ^ (-331 : ℤ) := zpow_le_zpow_right₀ (by norm_num) hexponent
        _ ≤ 2 ^ (-1075 : ℤ) := ten_zpow_le
    · have hexponent : 310 ≤ (k : ℤ) - places := by omega
      have hlarge : (2 : ℚ) ^ (1024 : ℤ) ≤ digits / 10 ^ places :=
        calc (2 : ℚ) ^ (1024 : ℤ) ≤ 10 ^ (310 : ℤ) := le_ten_zpow
          _ ≤ 10 ^ ((k : ℤ) - places) := zpow_le_zpow_right₀ (by norm_num) hexponent
          _ ≤ digits / 10 ^ places := hlower
      have hnearest : (2 : ℚ) ^ (1024 : ℤ) ≤ nearest (digits / 10 ^ places) := by
        rw [zpow_le_nearest_iff hq.le (by norm_num)]
        exact (sub_le_self _ (by positivity)).trans hlarge
      exact ⟨fun h => absurd hnearest (not_le.2 h), fun _ => rfl⟩
    · have hbase : 0 < 10 := by norm_num
      have hratio := isNearest_ofRatio (dividedByPower 10 digits 1 places).1
        (dividedByPower_pos digits 1 places hbase one_pos)
      rw [dividedByPower_div digits 1 _ hbase, zpow_natCast, Nat.cast_one, div_one,
        Nat.cast_ofNat] at hratio
      rw [neg_neg]
      exact hratio

end SchemaCompiler.Number.Binary64
