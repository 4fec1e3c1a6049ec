import SchemaCompiler.Proofs.Migration.Calendar
import SchemaCompiler.Text.Digit

/-!
# Time stamps

The stamp of a time in the years 1000 to 9999 is a run of fourteen digits, two for each of its
parts from the century down.  Texts that start with such stamps are ordered as the times.

* `Text.pair` — the two digits of a number below a hundred;
* `Time.toList_stamp` — a stamp is the pairs of the parts of the time;
* `Time.stamp_append_lt` — **an earlier time gives a smaller text, whatever follows the stamp**.
-/

namespace SchemaCompiler

namespace Text

/-! ### Pairs of digits -/

/-- The two decimal digits of a number below a hundred. -/
def pair (n : Nat) : List Char := [Nat.digitChar (n / 10), Nat.digitChar (n % 10)]

theorem toDigits_of_lt_hundred {n : Nat} (hten : 10 ≤ n) (h : n < 100) :
    Nat.toDigits 10 n = pair n := by
  rw [Nat.toDigits_of_base_le (by decide) hten, Nat.toDigits_of_lt_base (by omega)]
  rfl

theorem toList_padNumber_two {n : Nat} (h : n < 100) : (padNumber 2 n).toList = pair n := by
  rw [padNumber, String.toList_ofList]
  by_cases hten : n < 10
  · rw [Nat.toDigits_of_lt_base hten, pair, Nat.div_eq_of_lt hten, Nat.mod_eq_of_lt hten]
    rfl
  · rw [toDigits_of_lt_hundred (Nat.not_lt.1 hten) h]
    rfl

theorem toList_toString_of_four_digits {n : Nat} (hlow : 1000 ≤ n) (h : n < 10000) :
    (toString n).toList = pair (n / 100) ++ pair (n % 100) := by
  rw [Nat.toString_eq_ofList_toDigits, String.toList_ofList,
    Nat.toDigits_of_base_le (by decide) (by omega),
    Nat.toDigits_of_base_le (by decide) (by omega),
    toDigits_of_lt_hundred (by omega) (by omega)]
  have htens : n % 100 / 10 = n / 10 % 10 := by omega
  have hones : n % 100 % 10 = n % 10 := by omega
  have hhundreds : n / 10 / 10 = n / 100 := by omega
  simp only [pair, htens, hones, hhundreds]
  rfl

theorem digitChar_lt {m n : Nat} (h : m < n) (hn : n < 10) :
    Nat.digitChar m < Nat.digitChar n := by
  have hall : ∀ n < 10, ∀ m < n, Nat.digitChar m < Nat.digitChar n := by decide
  exact hall n hn m h

/-- The digits of numbers are digits of a script. -/
theorem isDigit_of_isDigit {c : Char} (h : c.isDigit = true) : isDigit c = true := by
  have hrange : 48 ≤ c.toNat ∧ c.toNat ≤ 57 := Char.isDigit_iff_toNat.1 h
  rw [isDigit, digitValue?, Option.isSome_map, List.find?_isSome]
  refine ⟨48, by decide, ?_⟩
  rw [Bool.and_eq_true, decide_eq_true_iff, decide_eq_true_iff]
  exact hrange

theorem lex_pair_append {m n : Nat} (h : m < n) (hn : n < 100) (rest rest' : List Char) :
    List.Lex (· < ·) (pair m ++ rest) (pair n ++ rest') := by
  rcases Nat.lt_or_ge (m / 10) (n / 10) with htens | htens
  · exact .rel (digitChar_lt htens (by omega))
  · have hsame : m / 10 = n / 10 := by omega
    rw [pair, pair, hsame]
    exact .cons (.rel (digitChar_lt (by omega) (by omega)))

/-! ### Numbers in pairs of digits -/

/-- The number that two-digit numbers spell one after the other, with another one before them. -/
def spelled (start : Nat) (parts : List Nat) : Nat := parts.foldl (fun n part => n * 100 + part) start

theorem spelled_lt_of_lt {start start' : Nat} (hstart : start < start') (parts parts' : List Nat)
    (hlength : parts.length = parts'.length) (hparts : ∀ part ∈ parts, part < 100) :
    spelled start parts < spelled start' parts' := by
  induction parts generalizing start start' parts' with
  | nil =>
    rw [List.eq_nil_of_length_eq_zero hlength.symm]
    exact hstart
  | cons part parts ih =>
    cases parts' with
    | nil => exact nomatch hlength
    | cons part' parts' =>
      have hpart := hparts part List.mem_cons_self
      refine ih ?_ parts' (Nat.succ.inj hlength) fun p hp => hparts p (List.mem_cons_of_mem part hp)
      show start * 100 + part < start' * 100 + part'
      omega

/-- Pairs of digits are ordered as the numbers that they spell. -/
theorem lex_flatMap_pair {start : Nat} {parts parts' : List Nat}
    (hlength : parts.length = parts'.length) (hparts : ∀ part ∈ parts, part < 100)
    (hparts' : ∀ part ∈ parts', part < 100) (hlt : spelled start parts < spelled start parts')
    (rest rest' : List Char) :
    List.Lex (· < ·) (parts.flatMap pair ++ rest) (parts'.flatMap pair ++ rest') := by
  induction parts generalizing start parts' with
  | nil =>
    rw [List.eq_nil_of_length_eq_zero hlength.symm] at hlt
    exact absurd hlt (Nat.lt_irrefl _)
  | cons part parts ih =>
    cases parts' with
    | nil => exact nomatch hlength
    | cons part' parts' =>
      have hlength' : parts.length = parts'.length := Nat.succ.inj hlength
      rw [List.flatMap_cons, List.flatMap_cons, List.append_assoc, List.append_assoc]
      rcases Nat.lt_trichotomy part part' with hpart | rfl | hpart
      · exact lex_pair_append hpart (hparts' part' List.mem_cons_self) _ _
      · have hrest := ih hlength' (fun p hp => hparts p (List.mem_cons_of_mem part hp))
          (fun p hp => hparts' p (List.mem_cons_of_mem part hp)) hlt
        exact .cons (.cons hrest)
      · -- A greater part in front cannot spell the smaller number.
        have hgt : spelled (start * 100 + part') parts' < spelled (start * 100 + part) parts := by
          refine spelled_lt_of_lt (by omega) parts' parts hlength'.symm ?_
          exact fun p hp => hparts' p (List.mem_cons_of_mem part' hp)
        exact absurd hlt (Nat.lt_asymm hgt)

end Text

/-! ### Stamps -/

namespace Time

open Text (pair padNumber)

/-- The parts of a stamp, from the century down. -/
def parts (t : Time) : List Nat :=
  [t.year / 100, t.year % 100, t.month, t.day, t.hour, t.minute, t.second]

theorem spelled_parts (t : Time) : Text.spelled 0 t.parts = t.digits := by
  have hyear : (0 * 100 + t.year / 100) * 100 + t.year % 100 = t.year := by omega
  show ((((((0 * 100 + t.year / 100) * 100 + t.year % 100) * 100 + t.month) * 100 + t.day) * 100 +
    t.hour) * 100 + t.minute) * 100 + t.second = t.digits
  rw [hyear]
  rfl

section Stamped

variable {t : Time} (h : t.Valid)
include h

theorem Valid.part_lt : ∀ part ∈ t.parts, part < 100 := by
  have hyear := h.year_le
  have hmonth := h.date.month_le
  have hday := Nat.le_trans h.date.day_le (daysInMonth_le _ _)
  have hhour := h.hour_lt
  have hminute := h.minute_lt
  have hsecond := h.second_lt
  simp only [parts, List.mem_cons, List.not_mem_nil, or_false, forall_eq_or_imp, forall_eq]
  omega

/-- The stamp of a year with four digits is the pairs of digits of its parts. -/
theorem toList_stamp (hyear : 1000 ≤ t.year) : t.stamp.toList = t.parts.flatMap pair := by
  have hparts := h.part_lt
  simp only [parts, List.mem_cons, List.not_mem_nil, or_false, forall_eq_or_imp, forall_eq] at hparts
  obtain ⟨-, -, hmonth, hday, hhour, hminute, hsecond⟩ := hparts
  simp only [stamp, String.toList_append, Text.toList_padNumber_two hmonth,
    Text.toList_padNumber_two hday, Text.toList_padNumber_two hhour,
    Text.toList_padNumber_two hminute, Text.toList_padNumber_two hsecond,
    Text.toList_toString_of_four_digits hyear (Nat.lt_succ_of_le h.year_le)]
  simp [parts]

theorem length_stamp (hyear : 1000 ≤ t.year) : t.stamp.toList.length = 14 := by
  rw [toList_stamp h hyear]
  rfl

end Stamped

/-- **An earlier time gives a smaller text, whatever follows the stamp.** -/
theorem stamp_append_lt {t u : Time} (ht : t.Valid) (hu : u.Valid) (hyear : 1000 ≤ t.year)
    (hyear' : 1000 ≤ u.year) (hlt : t.clockSeconds < u.clockSeconds) (rest rest' : String) :
    t.stamp ++ rest < u.stamp ++ rest' := by
  rw [String.lt_iff, String.toList_append, String.toList_append, toList_stamp ht hyear,
    toList_stamp hu hyear']
  have hdigits := (clockSeconds_lt_iff ht hu).1 hlt
  rw [← spelled_parts, ← spelled_parts] at hdigits
  exact Text.lex_flatMap_pair (by rfl) ht.part_lt hu.part_lt hdigits _ _

/-- A stamp has no other characters than digits. -/
theorem isDigit_of_mem_stamp (t : Time) : ∀ c ∈ t.stamp.toList, c.isDigit = true := by
  have hdigits : ∀ n, ∀ c ∈ Nat.toDigits 10 n, c.isDigit = true := fun n c hc =>
    Nat.isDigit_of_mem_toDigits (by decide) (by decide) hc
  have hpad : ∀ width n, ∀ c ∈ (padNumber width n).toList, c.isDigit = true := by
    intro width n c hc
    rw [padNumber, String.toList_ofList] at hc
    rcases List.mem_append.1 hc with hc | hc
    · rw [List.eq_of_mem_replicate hc]
      rfl
    · exact hdigits n c hc
  intro c hc
  simp only [stamp, String.toList_append, List.mem_append, or_assoc] at hc
  rcases hc with hc | hc | hc | hc | hc | hc
  · rw [Nat.toString_eq_ofList_toDigits, String.toList_ofList] at hc
    exact hdigits t.year c hc
  all_goals exact hpad 2 _ c hc

theorem notMem_stamp {c : Char} (h : c.isDigit = false) (t : Time) : c ∉ t.stamp.toList := by
  intro hc
  rw [isDigit_of_mem_stamp t c hc] at h
  exact nomatch h

end Time
end SchemaCompiler
