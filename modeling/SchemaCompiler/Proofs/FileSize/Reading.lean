import SchemaCompiler.Proofs.FileSize.Bytes
import SchemaCompiler.Proofs.Sql.LiteralList

/-!
# Which texts are file sizes

A text of the form of a size is read as one, with two exceptions: the sign for Kelvin is taken for
the letter of a unit and then not found among the units, and a size can be too large to be computed
in double precision.  What is not of this form is no size.

* `parse_eq_iff` — **what becomes of every text**, as a size and as the limit of a bucket;
* `parse_faults` — texts of the form of a size that are refused.
-/

namespace SchemaCompiler.FileSize

open Number Number.Binary64 Text

/-! ### Texts -/

/-- The text of a limit in the row of a bucket. -/
def limitText : Option Int → String
  | some size => toString size
  | none => "NULL"

theorem limitText_fileSizeLimit (s : String) :
    (Sql.fileSizeLimit (.text s)).outcome = (parse (.text s)).map limitText := by
  have hgiven : (Value.text s).isNull = false := rfl
  rw [Sql.fileSizeLimit, hgiven, if_neg Bool.false_ne_true, Traced.outcome_bind,
    Traced.outcome_lift]
  cases hparse : parse (.text s) with
  | error fault => rfl
  | ok size =>
    cases size with
    | none => rfl
    | some size => exact Sql.wholeText_eq_ok.2 ⟨natAbs_lt_of_parse hparse, rfl⟩

/-- The row of a bucket whose limit is a text. -/
theorem upsertBucket_text (b : StorageBucket) (s : String) :
    (Sql.upsertBucket { b with options := { b.options with fileSizeLimit := .text s } }).outcome =
      parse (.text s) >>= fun size => (Sql.mimeTypes b.options.mimeTypes).map fun types =>
        Sql.bucketFront b (limitText size) ++ types ++ Sql.bucketBack := by
  simp only [Sql.upsertBucket, Traced.outcome_bind, Traced.outcome_lift, Traced.outcome_pure,
    limitText_fileSizeLimit]
  cases parse (.text s) with
  | error fault => rfl
  | ok size =>
    cases Sql.mimeTypes b.options.mimeTypes with
    | error fault => rfl
    | ok types =>
      have hlimit : (Except.ok size : Except Fault _).map limitText = .ok (limitText size) := rfl
      rw [hlimit, ok_bind, ok_bind, ok_bind]
      unfold Sql.bucketFront Sql.bucketBack
      simp only [Except.map, String.append_assoc]

/-- **What becomes of a text.**  It is no size if it is not of the form of one.  It is a size, of a
number of bytes that is not negative, if it is of this form, its unit is one in letters of any case
and it is not too large.  It is refused if it is of this form and its unit holds the sign for
Kelvin, or it is too large, and in no other case.

As the limit of a bucket it is written as a number or as `NULL`, and the row of the bucket fails
because of it in these cases only. -/
theorem parse_eq_iff (s : String) :
    (parse (.text s) = .ok none ↔ ¬∃ p : Parts, p.Spelled (stripWhere isBlank s.toList)) ∧
    ((∃ n : Nat, parse (.text s) = .ok (some n)) ↔
      ∃ p : Parts, p.Spelled (stripWhere isBlank s.toList) ∧
        ∃ power, UnitPower p.unit power ∧ ¬p.TooLarge power) ∧
    (∀ fault, parse (.text s) = .error fault ↔
      ∃ p : Parts, p.Spelled (stripWhere isBlank s.toList) ∧
        (kelvinSign ∈ p.unit ∧ fault = .misuse .noSuchEntry ∨
          ∃ power, UnitPower p.unit power ∧ p.TooLarge power ∧ fault = .misuse .outOfRange)) ∧
    ∀ b : StorageBucket,
      (Sql.upsertBucket { b with options := { b.options with fileSizeLimit := .text s } }).outcome =
        parse (.text s) >>= fun size => (Sql.mimeTypes b.options.mimeTypes).map fun types =>
          Sql.bucketFront b (limitText size) ++ types ++ Sql.bucketBack := by
  refine ⟨⟨?_, parse_of_not_spelled⟩, ⟨?_, ?_⟩, fun fault => ⟨?_, ?_⟩,
    fun b => upsertBucket_text b s⟩
  · rintro hnone ⟨p, hp⟩
    rcases spelled_cases hp with hkelvin | ⟨power, hunit, hlarge | hlarge⟩
    · exact nomatch hnone.symm.trans (parse_of_kelvinSign hp hkelvin)
    · exact nomatch hnone.symm.trans (parse_of_tooLarge hp hunit hlarge)
    · exact nomatch hnone.symm.trans (parse_of_not_tooLarge hp hunit hlarge)
  · rintro ⟨n, hn⟩
    by_cases hform : ∃ p : Parts, p.Spelled (stripWhere isBlank s.toList)
    · obtain ⟨p, hp⟩ := hform
      rcases spelled_cases hp with hkelvin | ⟨power, hunit, hlarge | hlarge⟩
      · exact nomatch hn.symm.trans (parse_of_kelvinSign hp hkelvin)
      · exact nomatch hn.symm.trans (parse_of_tooLarge hp hunit hlarge)
      · exact ⟨p, hp, power, hunit, hlarge⟩
    · exact nomatch hn.symm.trans (parse_of_not_spelled hform)
  · rintro ⟨p, hp, power, hunit, hlarge⟩
    exact ⟨_, parse_of_not_tooLarge hp hunit hlarge⟩
  · intro hfault
    by_cases hform : ∃ p : Parts, p.Spelled (stripWhere isBlank s.toList)
    · obtain ⟨p, hp⟩ := hform
      rcases spelled_cases hp with hkelvin | ⟨power, hunit, hlarge | hlarge⟩
      · have heq := hfault.symm.trans (parse_of_kelvinSign hp hkelvin)
        exact ⟨p, hp, Or.inl ⟨hkelvin, Except.error.inj heq⟩⟩
      · have heq := hfault.symm.trans (parse_of_tooLarge hp hunit hlarge)
        exact ⟨p, hp, Or.inr ⟨power, hunit, hlarge, Except.error.inj heq⟩⟩
      · exact nomatch hfault.symm.trans (parse_of_not_tooLarge hp hunit hlarge)
    · exact nomatch hfault.symm.trans (parse_of_not_spelled hform)
  · rintro ⟨p, hp, ⟨hkelvin, rfl⟩ | ⟨power, hunit, hlarge, rfl⟩⟩
    · exact parse_of_kelvinSign hp hkelvin
    · exact parse_of_tooLarge hp hunit hlarge

/-- The digits of a power of ten. -/
def powerOfTen (k : Nat) : List Char := '1' :: List.replicate k '0'

theorem numberOf_powerOfTen (k : Nat) : numberOf (powerOfTen k) = 10 ^ k := by
  have hone : digitValue? '1' = some 1 := by decide +kernel
  have hzero : digitValue? '0' = some 0 := by decide +kernel
  induction k with
  | zero => simp [powerOfTen, numberOf, hone]
  | succ k ih =>
    rw [powerOfTen, numberOf] at ih
    rw [powerOfTen, List.replicate_succ', ← List.cons_append, numberOf, List.foldl_append, ih]
    simp [hzero, pow_succ, mul_comm]

/-- Digits that denote a number too large to be computed. -/
def hugeText : String := String.ofList (powerOfTen 310)

/-- Digits alone can be too large, and one kilobyte can be written with the sign for Kelvin. -/
theorem parse_faults :
    ((∃ p : Parts, p.Spelled (stripWhere isBlank hugeText.toList) ∧ UnitPower p.unit 0) ∧
      parse (.text hugeText) = .error (.misuse .outOfRange)) ∧
    (∃ p : Parts, p.Spelled (stripWhere isBlank "1\u212ab".toList)) ∧
      parse (.text "1\u212ab") = .error (.misuse .noSuchEntry) := by
  have hbytes : UnitPower [] 0 := Or.inl ⟨rfl, rfl⟩
  have hdigits : ∀ c ∈ powerOfTen 310, isDigit c = true := by
    intro c hc
    rcases List.mem_cons.1 hc with rfl | hzero
    · decide +kernel
    · rw [List.eq_of_mem_replicate hzero]
      decide +kernel
  have hhuge : Parts.Spelled ⟨powerOfTen 310, [], []⟩ (stripWhere isBlank hugeText.toList) := by
    have hne : powerOfTen 310 ≠ [] := List.cons_ne_nil _ _
    have hspelled := spelled_digits hne hdigits hbytes
    rw [List.append_nil] at hspelled
    rwa [hugeText, String.toList_ofList]
  have hkelvin : Parts.Spelled ⟨['1'], [], ['\u212a', 'b']⟩
      (stripWhere isBlank "1\u212ab".toList) :=
    readText_eq_some_iff.1 (by decide +kernel)
  refine ⟨⟨⟨_, hhuge, hbytes⟩, parse_of_tooLarge hhuge hbytes ?_⟩, ⟨_, hkelvin⟩,
    parse_of_kelvinSign hkelvin (by decide)⟩
  rw [Parts.TooLarge, List.append_nil, numberOf_powerOfTen, List.length_nil, pow_zero, pow_zero,
    mul_one, mul_one]
  unfold limit
  decide +kernel

end SchemaCompiler.FileSize
