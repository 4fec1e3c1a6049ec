import Mathlib.Algebra.Order.Field.Power
import Mathlib.Data.Int.Log
import Mathlib.Data.Rat.Floor
import Mathlib.Tactic.Linarith
import Mathlib.Tactic.NormNum
import Mathlib.Tactic.Positivity
import Mathlib.Tactic.Ring

/-!
# Rounding to double precision

Which quantity a quantity is rounded to in double precision, told without the numbers that stand for
it: one of 53 significant bits, or of fewer where the least exponent does not allow for so many.
There is no bound above; where a quantity is too large is a question about what it is rounded to.

* `halfEven` — the nearest whole number, a tie going to the even one;
* `grid` — the exponent of the grid that a quantity is rounded to;
* `nearest` — the quantity that a quantity is rounded to;
* `nearest_mul_zpow` — what has 53 significant bits stays as it is;
* `zpow_le_nearest_iff` — **a power of two is reached from half a step below it**;
* `limit`, `le_nearest_iff` — so that `2 ^ 1024` is reached from a certain whole number on;
* `nearest_natCast_eq_iff` — the whole numbers that stay as they are;
* `nearestWhole` — the whole number that a whole number is rounded to;
* `floor_nearest_add_half` — what is left of a whole number after one half has been added to it.
-/

namespace SchemaCompiler.Number

/-! ### Whole numbers -/

/-- The nearest whole number, and of two the even one. -/
def halfEven (q : ℚ) : ℤ :=
  if Int.fract q < 1 / 2 then ⌊q⌋
  else if 1 / 2 < Int.fract q then ⌊q⌋ + 1
  else if Even ⌊q⌋ then ⌊q⌋
  else ⌊q⌋ + 1

/-- Up to which quantities the nearest whole number is at most `k`. -/
theorem halfEven_le_iff {q : ℚ} {k : ℤ} :
    halfEven q ≤ k ↔ q < k + 1 / 2 ∨ (q = k + 1 / 2 ∧ Even k) := by
  have hq : (⌊q⌋ : ℚ) + Int.fract q = q := Int.floor_add_fract q
  have hnonneg : 0 ≤ Int.fract q := Int.fract_nonneg q
  have hlt : Int.fract q < 1 := Int.fract_lt_one q
  rcases lt_trichotomy ⌊q⌋ k with hk | hk | hk
  · have hcast : (⌊q⌋ : ℚ) + 1 ≤ k := by exact_mod_cast hk
    refine iff_of_true ?_ (Or.inl (by linarith))
    unfold halfEven
    split_ifs <;> omega
  · subst hk
    unfold halfEven
    split_ifs with hbelow habove heven
    · exact iff_of_true le_rfl (Or.inl (by linarith))
    · refine iff_of_false (by omega) ?_
      rintro (h | ⟨h, -⟩) <;> linarith
    · exact iff_of_true le_rfl (Or.inr ⟨by linarith, heven⟩)
    · refine iff_of_false (by omega) ?_
      rintro (h | ⟨-, h⟩)
      · linarith
      · exact heven h
  · have hcast : (k : ℚ) + 1 ≤ ⌊q⌋ := by exact_mod_cast hk
    refine iff_of_false ?_ ?_
    · unfold halfEven
      split_ifs <;> omega
    · rintro (h | ⟨h, -⟩) <;> linarith

theorem le_halfEven {q : ℚ} {k : ℤ} (h : (k : ℚ) ≤ q) : k ≤ halfEven q := by
  by_contra hlt
  have hle : halfEven q ≤ k - 1 := by omega
  rw [halfEven_le_iff] at hle
  push_cast at hle
  rcases hle with hq | ⟨hq, -⟩ <;> linarith

theorem halfEven_le {q : ℚ} {k : ℤ} (h : q ≤ k) : halfEven q ≤ k :=
  halfEven_le_iff.2 (Or.inl (by linarith))

theorem halfEven_eq {q : ℚ} {k : ℤ} (hle : (k : ℚ) ≤ q) (hlt : q < k + 1 / 2) : halfEven q = k :=
  le_antisymm (halfEven_le_iff.2 (Or.inl hlt)) (le_halfEven hle)

theorem halfEven_intCast (k : ℤ) : halfEven k = k := halfEven_eq le_rfl (by linarith)

/-- An even number is reached from one half below it. -/
theorem le_halfEven_iff {q : ℚ} {k : ℤ} (hk : Even k) : k ≤ halfEven q ↔ (k : ℚ) - 1 / 2 ≤ q := by
  have hodd : ¬Even (k - 1) := Int.not_even_iff_odd.2 (hk.sub_odd odd_one)
  rw [← Int.not_lt, ← Int.le_sub_one_iff, halfEven_le_iff, or_iff_left fun h => hodd h.2, not_lt]
  push_cast
  rw [show (k : ℚ) - 1 + 1 / 2 = k - 1 / 2 by ring]

/-- Halfway between two whole numbers the even one is taken. -/
theorem halfEven_add_half (k : ℤ) : halfEven (k + 1 / 2) = if Even k then k else k + 1 := by
  split
  next heven =>
    exact le_antisymm (halfEven_le_iff.2 (Or.inr ⟨rfl, heven⟩)) (le_halfEven (by linarith))
  next hodd =>
    refine le_antisymm (halfEven_le (by push_cast; linarith)) ?_
    by_contra hlt
    have hle : halfEven (k + 1 / 2) ≤ k := by omega
    rw [halfEven_le_iff] at hle
    rcases hle with h | ⟨-, h⟩
    · exact lt_irrefl _ h
    · exact hodd h

/-! ### Grids -/

/-- The exponent of the grid that a quantity is rounded to: the one on which it has 53 significant
bits, or the least one. -/
def grid (q : ℚ) : ℤ := max (-1074) (Int.log 2 q - 52)

theorem neg_le_grid (q : ℚ) : -1074 ≤ grid q := le_max_left _ _

theorem grid_le_iff {q : ℚ} (hq : 0 < q) {e : ℤ} (he : -1074 ≤ e) :
    grid q ≤ e ↔ q < 2 ^ (e + 53) := by
  have hlog := Int.lt_zpow_iff_log_lt (b := 2) one_lt_two (x := e + 53) hq
  rw [Nat.cast_ofNat] at hlog
  rw [hlog, grid, max_le_iff]
  omega

theorem lt_grid_iff {q : ℚ} (hq : 0 < q) {e : ℤ} (he : -1074 ≤ e) :
    e < grid q ↔ 2 ^ (e + 53) ≤ q := by
  rw [← not_le, grid_le_iff hq he, not_lt]

theorem lt_zpow_grid {q : ℚ} (hq : 0 < q) : q < 2 ^ (grid q + 53) :=
  (grid_le_iff hq (neg_le_grid q)).1 le_rfl

/-- On a grid that is not the least one a quantity has all its 53 bits. -/
theorem zpow_grid_le {q : ℚ} (hq : 0 < q) (h : -1074 < grid q) : 2 ^ (grid q + 52) ≤ q := by
  have hlt := (lt_grid_iff hq (e := grid q - 1) (by omega)).1 (by omega)
  rwa [show grid q - 1 + 53 = grid q + 52 by ring] at hlt

/-- The grid of a quantity between two powers of two. -/
theorem grid_eq {q : ℚ} {e : ℤ} (he : -1074 ≤ e) (hle : 2 ^ (e + 52) ≤ q)
    (hlt : q < 2 ^ (e + 53)) : grid q = e := by
  have hq : 0 < q := lt_of_lt_of_le (by positivity) hle
  refine le_antisymm ((grid_le_iff hq he).2 hlt) ?_
  rcases he.eq_or_lt with rfl | he
  · exact neg_le_grid q
  · have hgrid := (lt_grid_iff hq (e := e - 1) (by omega)).2
      (by rwa [show e - 1 + 53 = e + 52 by ring])
    omega

/-! ### The nearest quantity -/

/-- The quantity that a quantity is rounded to. -/
def nearest (q : ℚ) : ℚ := halfEven (q / 2 ^ grid q) * 2 ^ grid q

theorem nearest_zero : nearest 0 = 0 := by
  have hzero := halfEven_intCast 0
  rw [Int.cast_zero] at hzero
  rw [nearest, zero_div, hzero, Int.cast_zero, zero_mul]

theorem nearest_nonneg {q : ℚ} (hq : 0 ≤ q) : 0 ≤ nearest q := by
  have hround : 0 ≤ halfEven (q / 2 ^ grid q) := le_halfEven (by rw [Int.cast_zero]; positivity)
  have hcast : (0 : ℚ) ≤ halfEven (q / 2 ^ grid q) := by exact_mod_cast hround
  unfold nearest
  positivity

/-- What is on its grid stays as it is. -/
theorem nearest_of_multiple {q : ℚ} {k : ℤ} (h : q = k * 2 ^ grid q) : nearest q = q := by
  have hk : q / 2 ^ grid q = k := by
    rw [div_eq_iff (by positivity)]
    exact h
  rw [nearest, hk, halfEven_intCast, ← h]

/-- A multiple of a power of two is a multiple of every smaller one. -/
theorem exists_multiple (m : ℕ) {g e : ℤ} (h : g ≤ e) :
    ∃ k : ℕ, (m : ℚ) * 2 ^ e = k * 2 ^ g := by
  obtain ⟨d, rfl⟩ := Int.le.dest h
  refine ⟨m * 2 ^ d, ?_⟩
  rw [zpow_add₀ two_ne_zero, zpow_natCast]
  push_cast
  ring

theorem mul_zpow_lt {m : ℕ} (hm : m < 2 ^ 53) (e : ℤ) : (m : ℚ) * 2 ^ e < 2 ^ (e + 53) := by
  have hcast : (m : ℚ) < 2 ^ (53 : ℤ) := by exact_mod_cast hm
  rw [add_comm, zpow_add₀ two_ne_zero]
  exact mul_lt_mul_of_pos_right hcast (by positivity)

/-- **What has 53 significant bits stays as it is.** -/
theorem nearest_mul_zpow {m : ℕ} {e : ℤ} (hm : m < 2 ^ 53) (he : -1074 ≤ e) :
    nearest (m * 2 ^ e) = m * 2 ^ e := by
  rcases Nat.eq_zero_or_pos m with rfl | hpos
  · rw [Nat.cast_zero, zero_mul, nearest_zero]
  · have hq : (0 : ℚ) < m * 2 ^ e := by positivity
    obtain ⟨k, hk⟩ := exists_multiple m ((grid_le_iff hq he).2 (mul_zpow_lt hm e))
    exact nearest_of_multiple (k := k) (by exact_mod_cast hk)

/-- Less than half of the least step is nothing. -/
theorem nearest_eq_zero {q : ℚ} (hq : 0 < q) (h : q < 2 ^ (-1075 : ℤ)) : nearest q = 0 := by
  have hhalf : (2 : ℚ) ^ (-1075 : ℤ) = 1 / 2 * 2 ^ (-1074 : ℤ) := by
    rw [show (-1075 : ℤ) = -1074 - 1 by norm_num, zpow_sub_one₀ two_ne_zero]
    ring
  have hle : (2 : ℚ) ^ (-1075 : ℤ) ≤ 2 ^ (-1074 + 53 : ℤ) :=
    zpow_le_zpow_right₀ one_le_two (by norm_num)
  have hgrid : grid q = -1074 :=
    le_antisymm ((grid_le_iff hq le_rfl).2 (lt_of_lt_of_le h hle)) (neg_le_grid q)
  have hzero : halfEven (q / 2 ^ (-1074 : ℤ)) = 0 := by
    refine halfEven_eq ?_ ?_
    · rw [Int.cast_zero]
      positivity
    · rw [Int.cast_zero, zero_add, div_lt_iff₀ (by positivity), ← hhalf]
      exact h
  rw [nearest, hgrid, hzero, Int.cast_zero, zero_mul]

/-- What a quantity is rounded to is a multiple of its grid, by at most `2 ^ 53`, and by less than
`2 ^ 52` only on the least grid. -/
theorem exists_nearest_eq {q : ℚ} (hq : 0 < q) :
    ∃ m : ℕ, halfEven (q / 2 ^ grid q) = m ∧ nearest q = m * 2 ^ grid q ∧ m ≤ 2 ^ 53 ∧
      (-1074 < grid q → 2 ^ 52 ≤ m) := by
  have hunit : (0 : ℚ) < 2 ^ grid q := by positivity
  have hnonneg : 0 ≤ halfEven (q / 2 ^ grid q) :=
    le_halfEven (by rw [Int.cast_zero]; positivity)
  obtain ⟨m, hm⟩ := Int.eq_ofNat_of_zero_le hnonneg
  refine ⟨m, hm, ?_, ?_, fun hgrid => ?_⟩
  · rw [nearest, hm, Int.cast_natCast]
  · have hle : halfEven (q / 2 ^ grid q) ≤ 2 ^ 53 := by
      refine halfEven_le ?_
      rw [div_le_iff₀ hunit]
      have hlt := lt_zpow_grid hq
      rw [add_comm, zpow_add₀ two_ne_zero] at hlt
      exact_mod_cast hlt.le
    rw [hm] at hle
    exact_mod_cast hle
  · have hle : 2 ^ 52 ≤ halfEven (q / 2 ^ grid q) := by
      refine le_halfEven ?_
      rw [le_div_iff₀ hunit]
      have hbits := zpow_grid_le hq hgrid
      rw [add_comm, zpow_add₀ two_ne_zero] at hbits
      exact_mod_cast hbits
    rw [hm] at hle
    exact_mod_cast hle

/-- On a grid no coarser than that below it, a power of two is reached from half a step of the grid
below it. -/
theorem zpow_le_nearest_iff_of_grid {q : ℚ} {j : ℤ} (hgrid : grid q + 53 ≤ j) :
    2 ^ j ≤ nearest q ↔ 2 ^ j - 2 ^ (grid q - 1) ≤ q := by
  obtain ⟨d, hd⟩ := Int.le.dest hgrid
  have hunit : (0 : ℚ) < 2 ^ grid q := by positivity
  have hpower : (2 : ℚ) ^ j = ((2 ^ (53 + d) : ℤ) : ℚ) * 2 ^ grid q := by
    rw [← hd, show grid q + 53 + d = ((53 + d : ℕ) : ℤ) + grid q by push_cast; ring,
      zpow_add₀ two_ne_zero, zpow_natCast]
    push_cast
    rfl
  have hhalf : (2 : ℚ) ^ (grid q - 1) = 1 / 2 * 2 ^ grid q := by
    rw [zpow_sub_one₀ two_ne_zero]
    ring
  calc 2 ^ j ≤ nearest q
      ↔ (2 : ℤ) ^ (53 + d) ≤ halfEven (q / 2 ^ grid q) := by
        rw [nearest, hpower, mul_le_mul_iff_left₀ hunit, Int.cast_le]
    _ ↔ ((2 ^ (53 + d) : ℤ) : ℚ) - 1 / 2 ≤ q / 2 ^ grid q :=
        le_halfEven_iff (even_two.pow_of_ne_zero (by omega))
    _ ↔ 2 ^ j - 2 ^ (grid q - 1) ≤ q := by
        rw [le_div_iff₀ hunit, sub_mul, ← hpower, ← hhalf]

/-- **A power of two is reached from half a step below it**, and the steps below it are those of
numbers with 53 bits. -/
theorem zpow_le_nearest_iff {q : ℚ} (hq : 0 ≤ q) {j : ℤ} (hj : -1021 ≤ j) :
    2 ^ j ≤ nearest q ↔ 2 ^ j - 2 ^ (j - 54) ≤ q := by
  rcases hq.eq_or_lt with rfl | hq
  · rw [nearest_zero]
    have hpos : (0 : ℚ) < 2 ^ j := by positivity
    have hstep : (2 : ℚ) ^ (j - 54) < 2 ^ j := zpow_lt_zpow_right₀ one_lt_two (by omega)
    exact iff_of_false (not_le.2 hpos) (by linarith)
  have hhalf : (2 : ℚ) ^ (j - 1) = 2 ^ j / 2 := by rw [zpow_sub_one₀ two_ne_zero, div_eq_mul_inv]
  have hleast := neg_le_grid q
  rcases lt_trichotomy (grid q) (j - 53) with hlt | heq | hgt
  · -- Below half of the power both sides fail.
    have hsmall : q < 2 ^ (j - 1) := by
      have h := (grid_le_iff hq (e := j - 54) (by omega)).1 (by omega)
      rwa [show j - 54 + 53 = j - 1 by ring] at h
    have hstep {e : ℤ} (he : e ≤ j - 1) : (2 : ℚ) ^ e ≤ 2 ^ (j - 1) :=
      zpow_le_zpow_right₀ one_le_two he
    rw [zpow_le_nearest_iff_of_grid (by omega)]
    refine iff_of_false ?_ ?_
    · have h := hstep (e := grid q - 1) (by omega)
      linarith
    · have h := hstep (e := j - 54) (by omega)
      linarith
  · rw [zpow_le_nearest_iff_of_grid (by omega), heq, show j - 53 - 1 = j - 54 by ring]
  · -- On a coarser grid the power has long been passed.
    have hlarge : 2 ^ j ≤ q := by
      have h := (lt_grid_iff hq (e := j - 53) (by omega)).1 hgt
      rwa [show j - 53 + 53 = j by ring] at h
    refine iff_of_true ?_ ?_
    · obtain ⟨m, -, hm, -, hbits⟩ := exists_nearest_eq hq
      have hfull : 2 ^ 52 ≤ m := hbits (by omega)
      have hcast : (2 : ℚ) ^ (52 : ℤ) ≤ m := by exact_mod_cast hfull
      rw [hm]
      calc (2 : ℚ) ^ j ≤ 2 ^ (52 + grid q) := zpow_le_zpow_right₀ one_le_two (by omega)
        _ = 2 ^ (52 : ℤ) * 2 ^ grid q := zpow_add₀ two_ne_zero _ _
        _ ≤ m * 2 ^ grid q := by gcongr
    · have hpos : (0 : ℚ) < 2 ^ (j - 54) := by positivity
      linarith

/-- The least quantity that is rounded to `2 ^ 1024`. -/
@[irreducible] def limit : ℕ := 2 ^ 1024 - 2 ^ 970

theorem cast_pow_sub_pow {a b : ℕ} (h : a ≤ b) :
    ((2 ^ b - 2 ^ a : ℕ) : ℚ) = 2 ^ (b : ℤ) - 2 ^ (a : ℤ) := by
  rw [Nat.cast_sub (Nat.pow_le_pow_right two_pos h), zpow_natCast, zpow_natCast]
  push_cast
  rfl

theorem cast_limit : (limit : ℚ) = 2 ^ (1024 : ℤ) - 2 ^ (970 : ℤ) := by
  have h : 970 ≤ 1024 := by norm_num
  unfold limit
  exact cast_pow_sub_pow h

theorem pow_add_one_le_limit : 2 ^ 53 + 1 ≤ limit := by
  decide +kernel

/-- **What is rounded to so much that `2 ^ 1024` is reached** when it is multiplied by a power of
two. -/
theorem le_nearest_mul_iff {q : ℚ} (hq : 0 ≤ q) {k : ℕ} (hk : k ≤ 2045) :
    2 ^ (1024 : ℤ) ≤ nearest q * 2 ^ k ↔ (limit : ℚ) ≤ q * 2 ^ k := by
  have hpos : (0 : ℚ) < 2 ^ (k : ℤ) := by positivity
  have hsplit (j : ℤ) : (2 : ℚ) ^ j = 2 ^ (j - k) * 2 ^ (k : ℤ) := by
    rw [← zpow_add₀ two_ne_zero, sub_add_cancel]
  rw [cast_limit, hsplit 1024, hsplit 970, ← zpow_natCast, ← sub_mul,
    mul_le_mul_iff_left₀ hpos, mul_le_mul_iff_left₀ hpos, zpow_le_nearest_iff hq (by omega),
    show (1024 : ℤ) - k - 54 = 970 - k by ring]

theorem le_nearest_iff {q : ℚ} (hq : 0 ≤ q) : 2 ^ (1024 : ℤ) ≤ nearest q ↔ (limit : ℚ) ≤ q := by
  have h := le_nearest_mul_iff hq (Nat.zero_le 2045)
  rwa [pow_zero, mul_one, mul_one] at h

/-- What a quantity is rounded to stays as it is when it is rounded again. -/
theorem exists_nearest_eq_mul {q : ℚ} (hq : 0 < q) :
    ∃ (m : ℕ) (e : ℤ), m < 2 ^ 53 ∧ -1074 ≤ e ∧ nearest q = m * 2 ^ e := by
  obtain ⟨m, -, hm, hle, -⟩ := exists_nearest_eq hq
  have hleast := neg_le_grid q
  rcases hle.lt_or_eq with hlt | rfl
  · exact ⟨m, grid q, hlt, hleast, hm⟩
  · refine ⟨2 ^ 52, grid q + 1, by norm_num, by omega, ?_⟩
    rw [hm, zpow_add_one₀ two_ne_zero]
    push_cast
    ring

/-! ### Whole numbers in double precision -/

/-- **The whole numbers that stay as they are**: those with at most 53 significant bits. -/
theorem nearest_natCast_eq_iff {n : ℕ} :
    nearest n = n ↔ ∃ m e : ℕ, m < 2 ^ 53 ∧ n = m * 2 ^ e := by
  constructor
  · intro h
    by_cases hsmall : n < 2 ^ 53
    · exact ⟨n, 0, hsmall, by ring⟩
    · have hn : (0 : ℚ) < n := by exact_mod_cast (by omega : 0 < n)
      obtain ⟨m, e, hm, -, heq⟩ := exists_nearest_eq_mul hn
      rw [h] at heq
      -- A number of more than 53 bits cannot be a multiple of a fraction by less than `2 ^ 53`.
      have he : 0 ≤ e := by
        by_contra hneg
        have hlt := mul_zpow_lt hm e
        have hle : (2 : ℚ) ^ (e + 53) ≤ 2 ^ (53 : ℤ) :=
          zpow_le_zpow_right₀ one_le_two (by omega)
        have hcast : (n : ℚ) < 2 ^ (53 : ℤ) := by
          rw [heq]
          exact lt_of_lt_of_le hlt hle
        exact hsmall (by exact_mod_cast hcast)
      obtain ⟨k, rfl⟩ := Int.eq_ofNat_of_zero_le he
      exact ⟨m, k, hm, by rw [zpow_natCast] at heq; exact_mod_cast heq⟩
  · rintro ⟨m, e, hm, rfl⟩
    have h := nearest_mul_zpow hm (e := e) (by omega)
    push_cast
    rwa [zpow_natCast] at h

/-- The whole number that a whole number is rounded to. -/
def nearestWhole (n : ℕ) : ℕ := ⌊nearest n⌋₊

theorem nearestWhole_of_lt {n : ℕ} (h : n < 2 ^ 53) : nearestWhole n = n := by
  rw [nearestWhole, nearest_natCast_eq_iff.2 ⟨n, 0, h, by ring⟩, Nat.floor_natCast]

/-- From `2 ^ 53` on the grid has even numbers only. -/
theorem exists_nearest_eq_two_mul {n : ℕ} (h : 2 ^ 53 ≤ n) : ∃ r : ℕ, nearest n = 2 * r := by
  have hpos : (0 : ℚ) < n := by exact_mod_cast (by omega : 0 < n)
  have hgrid : 0 < grid n := by
    rw [lt_grid_iff hpos (by norm_num)]
    exact_mod_cast h
  obtain ⟨m, -, hm, -, -⟩ := exists_nearest_eq hpos
  obtain ⟨k, hk⟩ := Int.eq_ofNat_of_zero_le (Int.le_sub_one_of_lt hgrid)
  refine ⟨m * 2 ^ k, ?_⟩
  rw [hm, show grid n = k + 1 by omega, zpow_add_one₀ two_ne_zero, zpow_natCast]
  push_cast
  ring

theorem even_nearestWhole {n : ℕ} (h : 2 ^ 53 ≤ n) : Even (nearestWhole n) := by
  obtain ⟨r, hr⟩ := exists_nearest_eq_two_mul h
  refine ⟨r, ?_⟩
  rw [nearestWhole, hr, ← two_mul]
  exact_mod_cast Nat.floor_natCast (R := ℚ) (2 * r)

theorem cast_nearestWhole (n : ℕ) : (nearestWhole n : ℚ) = nearest n := by
  rcases lt_or_ge n (2 ^ 53) with hlt | hle
  · rw [nearestWhole_of_lt hlt, nearest_natCast_eq_iff.2 ⟨n, 0, hlt, by ring⟩]
  · obtain ⟨r, hr⟩ := exists_nearest_eq_two_mul hle
    rw [nearestWhole, hr]
    exact_mod_cast Nat.floor_natCast (R := ℚ) (2 * r)

theorem nearestWhole_eq_iff {n : ℕ} :
    nearestWhole n = n ↔ ∃ m e : ℕ, m < 2 ^ 53 ∧ n = m * 2 ^ e := by
  rw [← nearest_natCast_eq_iff, ← cast_nearestWhole, Nat.cast_inj]

/-- What has been rounded is not rounded again, nor is it after it has been multiplied by a power
of two. -/
theorem nearest_nearestWhole_mul (n k : ℕ) :
    nearest (nearestWhole n * 2 ^ k : ℕ) = (nearestWhole n * 2 ^ k : ℕ) := by
  have hself : nearest (nearestWhole n : ℚ) = nearestWhole n := by
    rw [cast_nearestWhole]
    rcases n.eq_zero_or_pos with rfl | hpos
    · rw [Nat.cast_zero, nearest_zero, nearest_zero]
    · obtain ⟨m, e, hm, he, heq⟩ := exists_nearest_eq_mul (Nat.cast_pos.2 hpos)
      rw [heq, nearest_mul_zpow hm he]
  obtain ⟨m, e, hm, heq⟩ := nearest_natCast_eq_iff.1 hself
  exact nearest_natCast_eq_iff.2 ⟨m, e + k, hm, by rw [heq, pow_add, mul_assoc]⟩

/-- Up to 52 bits there is room for the half. -/
theorem nearest_add_half_of_lt {v : ℕ} (hv : v < 2 ^ 52) :
    nearest (v + 1 / 2) = v + 1 / 2 := by
  have hhalf : (v : ℚ) + 1 / 2 = ((2 * v + 1 : ℕ) : ℚ) * 2 ^ (-1 : ℤ) := by
    rw [zpow_neg_one]
    push_cast
    ring
  rw [hhalf]
  exact nearest_mul_zpow (by omega) (by norm_num)

/-- With 53 bits the half is a tie, which goes to the even number. -/
theorem nearest_add_half_of_tie {v : ℕ} (hle : 2 ^ 52 ≤ v) (hlt : v < 2 ^ 53) :
    nearest (v + 1 / 2) = if Even v then (v : ℚ) else v + 1 := by
  have hcast : (2 : ℚ) ^ 52 ≤ v := by exact_mod_cast hle
  have hcast' : (v : ℚ) + 1 ≤ 2 ^ 53 := by exact_mod_cast hlt
  have hgrid : grid ((v : ℚ) + 1 / 2) = 0 := by
    refine grid_eq (by norm_num) ?_ ?_
    · rw [zero_add]
      exact_mod_cast (by linarith : (2 : ℚ) ^ 52 ≤ v + 1 / 2)
    · rw [zero_add]
      exact_mod_cast (by linarith : (v : ℚ) + 1 / 2 < 2 ^ 53)
  have htie := halfEven_add_half v
  rw [Int.cast_natCast] at htie
  rw [nearest, hgrid, zpow_zero, div_one, mul_one, htie]
  simp only [Int.even_coe_nat]
  split <;> push_cast <;> rfl

/-- Beyond that the half is lost. -/
theorem nearest_add_half_of_le {v : ℕ} (hv : nearest v = v) (hle : 2 ^ 53 ≤ v) :
    nearest (v + 1 / 2) = v := by
  obtain ⟨m, e, hm, rfl⟩ := nearest_natCast_eq_iff.1 hv
  set v := m * 2 ^ e with hdef
  have hq : (0 : ℚ) < v + 1 / 2 := by positivity
  have hmul : (v : ℚ) = m * 2 ^ (e : ℤ) := by
    rw [hdef, zpow_natCast]
    push_cast
    rfl
  have hcoarse : grid ((v : ℚ) + 1 / 2) ≤ e := by
    rw [grid_le_iff hq (by omega)]
    have hlt : v + 1 ≤ 2 ^ (e + 53) := by
      rw [hdef, pow_add, mul_comm]
      exact Nat.mul_lt_mul_of_pos_left hm (by positivity)
    have hcast : (v : ℚ) + 1 ≤ 2 ^ ((e : ℤ) + 53) := by exact_mod_cast hlt
    linarith
  have hfine : 0 < grid ((v : ℚ) + 1 / 2) := by
    rw [lt_grid_iff hq (by norm_num), zero_add]
    have hcast : (2 : ℚ) ^ 53 ≤ v := by exact_mod_cast hle
    exact_mod_cast (by linarith : (2 : ℚ) ^ 53 ≤ v + 1 / 2)
  obtain ⟨k, hk⟩ := exists_multiple m hcoarse
  rw [← hmul] at hk
  have hunit : (0 : ℚ) < 2 ^ grid ((v : ℚ) + 1 / 2) := by positivity
  have hlost : halfEven (((v : ℚ) + 1 / 2) / 2 ^ grid ((v : ℚ) + 1 / 2)) = k := by
    refine halfEven_eq ?_ ?_
    · rw [Int.cast_natCast, le_div_iff₀ hunit, ← hk]
      linarith
    · rw [Int.cast_natCast, div_lt_iff₀ hunit, add_mul, ← hk]
      have hone : (1 : ℚ) < 2 ^ grid ((v : ℚ) + 1 / 2) := one_lt_zpow₀ one_lt_two hfine
      linarith
  rw [nearest, hlost, Int.cast_natCast, ← hk]

/-- **One half more**: what is left of a whole number with 53 significant bits after one half has
been added to it, is the number itself, but the next one if the half was a tie and the number
odd. -/
theorem floor_nearest_add_half {v : ℕ} (hv : nearest v = v) :
    ⌊nearest (v + 1 / 2)⌋₊ = if 2 ^ 52 ≤ v ∧ v < 2 ^ 53 ∧ v % 2 = 1 then v + 1 else v := by
  rcases lt_or_ge v (2 ^ 52) with hsmall | hsmall
  · rw [nearest_add_half_of_lt hsmall, if_neg fun h => absurd h.1 (by omega)]
    exact Nat.floor_eq_iff (by positivity) |>.2 ⟨by linarith, by linarith⟩
  · rcases lt_or_ge v (2 ^ 53) with htie | hlarge
    · rw [nearest_add_half_of_tie hsmall htie]
      rcases Nat.even_or_odd v with heven | hodd
      · rw [if_pos heven, if_neg fun h => absurd (Nat.even_iff.1 heven) (by omega),
          Nat.floor_natCast]
      · rw [if_neg (Nat.not_even_iff_odd.2 hodd), if_pos ⟨hsmall, htie, Nat.odd_iff.1 hodd⟩]
        exact_mod_cast Nat.floor_natCast (R := ℚ) (v + 1)
    · rw [nearest_add_half_of_le hv hlarge, if_neg fun h => absurd h.2.1 (by omega),
        Nat.floor_natCast]

end SchemaCompiler.Number
