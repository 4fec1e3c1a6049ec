import SchemaCompiler.Number.Shortest
import SchemaCompiler.Proofs.Sql.Composition

/-!
# Numbers in SQL

A number is written with ordinary characters and at most two minus signs, one at its front and one
in its exponent.  As these never stand side by side, numbers are closed: `closed_number` and, for
the three kinds of numbers, `closed_int`, `closed_decimal` and `closed_float`.
-/

namespace SchemaCompiler.Sql

/-! ### Ordinary texts -/

/-- The characters that are not ordinary. -/
def specials : List Char := ['\'', '$', '-', ';', '\n', '\r']

theorem isOrdinary_iff {c : Char} : isOrdinary c = true ↔ c ∉ specials := by
  simp [isOrdinary, isMark, specials, and_assoc]

/-- Where a test fails on all special characters, it picks ordinary ones. -/
theorem isOrdinary_of {p : Char → Bool} {c : Char} (h : p c = true)
    (hp : specials.all (fun d => !p d) = true) : isOrdinary c = true := by
  rw [isOrdinary_iff]
  intro hc
  have hfalse := List.all_eq_true.1 hp c hc
  rw [h] at hfalse
  exact Bool.false_ne_true hfalse

theorem Ordinary.nil : Ordinary [] := nofun

theorem Ordinary.cons {c : Char} {cs : List Char} (hc : isOrdinary c = true) (h : Ordinary cs) :
    Ordinary (c :: cs) := by
  intro d hd
  rcases List.mem_cons.1 hd with rfl | hd
  · exact hc
  · exact h d hd

theorem Ordinary.append {xs ys : List Char} (hx : Ordinary xs) (hy : Ordinary ys) :
    Ordinary (xs ++ ys) := by
  intro c hc
  rcases List.mem_append.1 hc with hc | hc
  · exact hx c hc
  · exact hy c hc

theorem Ordinary.of_subset {xs ys : List Char} (h : Ordinary ys) (hsub : xs ⊆ ys) : Ordinary xs :=
  fun c hc => h c (hsub hc)

theorem Ordinary.replicate {c : Char} (h : isOrdinary c = true) (n : Nat) :
    Ordinary (List.replicate n c) := by
  intro d hd
  rw [List.eq_of_mem_replicate hd]
  exact h

theorem ordinary_toDigits (n : Nat) : Ordinary (Nat.toDigits 10 n) := fun _ hc =>
  isOrdinary_of (Nat.isDigit_of_mem_toDigits (by decide) (by decide) hc) rfl

theorem Ordinary.scan {cs : List Char} (h : Ordinary cs) (mode : Mode) :
    scan mode cs = ⟨mode, 0, 0⟩ := by
  have hscan := h.scan_append mode []
  rwa [List.append_nil, Sql.scan] at hscan

theorem closed_of_ordinary {s : String} (h : Ordinary s.toList) : Closed s := h.scan .plain

/-! ### Numbers -/

/-- A number without its sign: ordinary text, perhaps with a minus sign inside. -/
def IsUnsigned (cs : List Char) : Prop :=
  Ordinary cs ∨ ∃ xs ys, xs ≠ [] ∧ Ordinary xs ∧ Ordinary ys ∧ cs = xs ++ '-' :: ys

theorem scan_dash {cs : List Char} (h : cs.head? ≠ some '-') :
    scan .plain ('-' :: cs) = scan .plain cs :=
  scan_plain_cons (by decide) (fun heq => absurd heq (by decide)) (fun _ => h) (by decide)

theorem Ordinary.head? {cs : List Char} (h : Ordinary cs) : cs.head? ≠ some '-' := by
  intro hhead
  exact absurd (h '-' (List.mem_of_head? hhead)) (by decide)

theorem IsUnsigned.scan {cs : List Char} (h : IsUnsigned cs) :
    Sql.scan .plain cs = ⟨.plain, 0, 0⟩ := by
  rcases h with h | ⟨xs, ys, -, hx, hy, rfl⟩
  · exact h.scan .plain
  · rw [hx.scan_append, scan_dash hy.head?, hy.scan]

theorem IsUnsigned.head? {cs : List Char} (h : IsUnsigned cs) : cs.head? ≠ some '-' := by
  rcases h with h | ⟨xs, ys, hne, hx, -, rfl⟩
  · exact h.head?
  · rw [List.head?_append_of_ne_nil _ hne]
    exact hx.head?

/-- **Numbers are closed**, with their sign. -/
theorem closed_number (negative : Bool) {cs : List Char} (h : IsUnsigned cs) :
    Closed (String.ofList (if negative then '-' :: cs else cs)) := by
  rw [Closed, Ends, String.toList_ofList]
  cases negative with
  | false => exact h.scan
  | true => exact (scan_dash h.head?).trans h.scan

/-- Ordinary text with an exponent after the letter `e`. -/
theorem isUnsigned_exponent {xs ys : List Char} (hx : Ordinary xs) (hy : Ordinary ys)
    {letter : Char} (hletter : isOrdinary letter = true) (e : Int) :
    IsUnsigned (xs ++ [letter, if e < 0 then '-' else '+'] ++ ys) := by
  have hxs : Ordinary (xs ++ [letter]) := hx.append (.cons hletter .nil)
  by_cases he : e < 0
  · rw [if_pos he]
    refine Or.inr ⟨xs ++ [letter], ys, by simp, hxs, hy, by simp⟩
  · rw [if_neg he]
    have hplus : Ordinary ('+' :: ys) := .cons (by decide) hy
    have hall := hxs.append hplus
    rw [List.append_assoc] at hall
    rw [List.append_assoc]
    exact Or.inl hall

theorem closed_nat (n : Nat) : Closed (toString n) := by
  refine closed_of_ordinary ?_
  rw [show toString n = n.repr from rfl, Nat.toList_repr]
  exact ordinary_toDigits n

theorem toString_negSucc (n : Nat) :
    toString (Int.negSucc n) = String.ofList ('-' :: Nat.toDigits 10 (n + 1)) := by
  rw [← String.toList_inj]
  show ("-" ++ Nat.repr (n + 1)).toList = _
  simp only [String.toList_append, Nat.toList_repr, String.toList_ofList]
  rfl

theorem closed_int (n : Int) : Closed (toString n) := by
  cases n with
  | ofNat n => exact closed_nat n
  | negSucc n =>
    rw [toString_negSucc]
    exact closed_number true (.inl (ordinary_toDigits (n + 1)))

theorem isUnsigned_finiteText (coefficient : Nat) (exponent : Int) :
    IsUnsigned (Number.Decimal.finiteText coefficient exponent) := by
  have hdigits := ordinary_toDigits coefficient
  have hzeros : ∀ n, Ordinary (List.replicate n '0') := Ordinary.replicate (by decide)
  unfold Number.Decimal.finiteText
  extract_lets ds left place shown e
  have hshown : Ordinary shown := by
    show Ordinary (if _ then _ else _)
    split
    · exact ((Ordinary.cons (by decide) (.cons (by decide) .nil)).append (hzeros _)).append hdigits
    split
    · exact hdigits.append (hzeros _)
    · exact (hdigits.of_subset (List.take_subset _ _)).append
        (.cons (by decide) (hdigits.of_subset (List.drop_subset _ _)))
  split
  · exact Or.inl hshown
  · exact isUnsigned_exponent hshown (ordinary_toDigits _) (by decide) e

theorem closed_decimal {d : Number.Decimal}
    (h : ∀ negative signaling diagnostic tag, d = .nan negative signaling diagnostic tag →
      Ordinary diagnostic.toList) : Closed d.toText := by
  cases d with
  | finite negative c e => exact closed_number negative (isUnsigned_finiteText c e)
  | infinite negative => cases negative <;> exact .of_chars rfl
  | nan negative signaling diagnostic tag =>
    have hdiagnostic := closed_of_ordinary (h _ _ _ _ rfl)
    cases negative <;> cases signaling <;>
      exact Settles.closed (Ends.code (.of_chars rfl) (.of_chars rfl)) hdiagnostic

theorem ordinary_placePoint {ds : List Char} (h : Ordinary ds) (place : Int) :
    Ordinary (Number.Binary64.placePoint ds place) := by
  have hzeros : ∀ n, Ordinary (List.replicate n '0') := Ordinary.replicate (by decide)
  unfold Number.Binary64.placePoint
  split
  · exact ((Ordinary.cons (by decide) (.cons (by decide) .nil)).append (hzeros _)).append h
  split
  · exact (h.append (hzeros _)).append (.cons (by decide) (.cons (by decide) .nil))
  · exact (h.of_subset (List.take_subset _ _)).append
      (.cons (by decide) (h.of_subset (List.drop_subset _ _)))

theorem isUnsigned_withExponent {ds : List Char} (h : Ordinary ds) (place : Int) :
    IsUnsigned (Number.Binary64.withExponent ds place) := by
  unfold Number.Binary64.withExponent
  extract_lets e size fraction
  have hfraction : Ordinary fraction := by
    show Ordinary (if _ then _ else _)
    split
    · exact .nil
    · exact .cons (by decide) (h.of_subset (List.drop_subset _ _))
  rw [List.append_assoc _ (List.replicate _ _)]
  exact isUnsigned_exponent ((h.of_subset (List.take_subset _ _)).append hfraction)
    ((Ordinary.replicate (by decide) _).append (ordinary_toDigits _)) (by decide) e

theorem ordinary_significant (n : Nat) :
    Ordinary (Number.Binary64.dropTrailingZeros (Nat.toDigits 10 n)) := by
  refine (ordinary_toDigits n).of_subset fun c hc => ?_
  rw [← List.mem_reverse]
  exact List.dropWhile_subset _ (List.mem_reverse.1 hc)

theorem closed_float (x : Number.Binary64) : Closed x.toText := by
  cases x with
  | nan tag =>
    show Closed "nan"
    exact .of_chars rfl
  | infinite negative => cases negative <;> exact .of_chars rfl
  | finite negative m e =>
    refine closed_number negative ?_
    split
    · exact Or.inl (.cons (by decide) (.cons (by decide) (.cons (by decide) .nil)))
    · generalize Number.Binary64.shortest m e = found
      show IsUnsigned (if _ then Number.Binary64.placePoint _ _
        else Number.Binary64.withExponent _ _)
      split
      · exact Or.inl (ordinary_placePoint (ordinary_significant _) _)
      · exact isUnsigned_withExponent (ordinary_significant _) _

end SchemaCompiler.Sql
