import Mathlib.Data.List.TakeWhile
import SchemaCompiler.FileSize

/-!
# The form of a file size

A size that is written out has digits, maybe a point and more digits, maybe blanks, and maybe a unit
in letters of any case.

* `Parts.Spelled` — the parts of a text of this form;
* `readText_eq_some_iff` — **the texts that are read are those of this form**, and the parts are
  told from the text;
* `UnitPower` — the unit of a size, as a power of 1024;
* `exists_unitPower`, `unitShift_of_kelvinSign` — a unit that is taken for one is one, unless it is
  written with the sign for Kelvin;
* `spelled_digits` — digits with a unit after them are of this form.
-/

namespace SchemaCompiler.FileSize

open Text

/-- The sign for the letter K that is no letter of a unit, but is taken for one. -/
def kelvinSign : Char := '\u212a'

/-- The digits after a point, with the point. -/
def pointed : List Char → List Char
  | [] => []
  | digits => '.' :: digits

/-- The text is made of the parts, with blanks before the unit. -/
structure Parts.Spelled (p : Parts) (cs : List Char) : Prop where
  whole_ne_nil : p.whole ≠ []
  whole : ∀ c ∈ p.whole, isDigit c = true
  fraction : ∀ c ∈ p.fraction, isDigit c = true
  unit : p.unit = [] ∨ isUnit p.unit = true
  text : ∃ gap, (∀ c ∈ gap, isBlank c = true) ∧ cs = p.whole ++ pointed p.fraction ++ gap ++ p.unit

/-! ### Characters -/

theorem isDigit_iff {c : Char} :
    isDigit c = true ↔ ∃ first ∈ digitZeros, first ≤ c.toNat ∧ c.toNat ≤ first + 9 := by
  simp [isDigit, digitValue?, List.find?_isSome]

theorem isBlank_iff {c : Char} :
    isBlank c = true ↔ ∃ run ∈ blankRuns, run.1 ≤ c.toNat ∧ c.toNat ≤ run.2 := by
  simp [isBlank, List.any_eq_true]

theorem stripWhere_of_forall {p : Char → Bool} {cs : List Char} (h : ∀ c ∈ cs, p c = false) :
    stripWhere p cs = cs := by
  have hstop : ∀ cs : List Char, (∀ c ∈ cs, p c = false) → cs.dropWhile p = cs := by
    intro cs hcs
    cases cs with
    | nil => rfl
    | cons c cs => rw [List.dropWhile_cons_of_neg (by simp [hcs c List.mem_cons_self])]
  rw [stripWhere, hstop cs h, hstop cs.reverse fun c hc => h c (List.mem_reverse.1 hc),
    List.reverse_reverse]

/-- No character is a digit and a blank. -/
theorem isDigit_of_isBlank {c : Char} (h : isBlank c = true) : isDigit c = false := by
  have hapart : ∀ first ∈ digitZeros, ∀ run ∈ blankRuns, first + 9 < run.1 ∨ run.2 < first := by
    decide +kernel
  rw [← Bool.not_eq_true, isDigit_iff]
  rintro ⟨first, hfirst, hle, hlt⟩
  obtain ⟨run, hrun, hrunle, hrunlt⟩ := isBlank_iff.1 h
  rcases hapart first hfirst run hrun with hapart | hapart <;> omega

theorem toUpper_of_le {c : Char} (h : 128 ≤ c.toNat) : c.toUpper = c := by
  have hval : ¬(c.val ≥ 'a'.val ∧ c.val ≤ 'z'.val) := by
    rintro ⟨-, hz⟩
    have hle : c.toNat ≤ 122 := hz
    omega
  exact dif_neg hval

theorem unitLetter_of_ne {c : Char} (h : c ≠ kelvinSign) : unitLetter c = c.toUpper := if_neg h

/-- The letters of the units. -/
def unitLetters : List Char := ['B', 'K', 'M', 'G', 'T']

/-- What is taken for a letter of a unit is no digit, blank or point. -/
theorem apart_of_unitLetter {c : Char} (h : unitLetter c ∈ unitLetters) :
    isDigit c = false ∧ isBlank c = false ∧ c ≠ '.' := by
  have hplain : ∀ n < 128, unitLetter (Char.ofNat n) ∈ unitLetters →
      isDigit (Char.ofNat n) = false ∧ isBlank (Char.ofNat n) = false ∧ Char.ofNat n ≠ '.' := by
    decide +kernel
  by_cases hc : c = kelvinSign
  · rw [hc]
    decide +kernel
  · rcases Nat.lt_or_ge c.toNat 128 with hlt | hle
    · have hofNat := hplain c.toNat hlt
      rw [Char.ofNat_toNat] at hofNat
      exact hofNat h
    · have hletters : ∀ letter ∈ unitLetters, letter.toNat < 128 := by simp [unitLetters]
      rw [unitLetter_of_ne hc, toUpper_of_le hle] at h
      exact absurd (hletters c h) (by omega)

theorem unitLetter_mem {unit : List Char} (h : isUnit unit = true) :
    ∀ c ∈ unit, unitLetter c ∈ unitLetters := by
  have hletters : ∀ u ∈ units, ∀ c ∈ u.1, c ∈ unitLetters := by simp [units, unitLetters]
  intro c hc
  obtain ⟨u, hu, hname⟩ := List.any_eq_true.1 h
  refine hletters u hu _ ?_
  rw [beq_iff_eq.1 hname]
  exact List.mem_map_of_mem hc

/-- A unit has no digit, blank or point. -/
theorem apart_of_unit {unit : List Char} (h : unit = [] ∨ isUnit unit = true) :
    ∀ c ∈ unit, isDigit c = false ∧ isBlank c = false ∧ c ≠ '.' := by
  rcases h with rfl | h
  · exact nofun
  · exact fun c hc => apart_of_unitLetter (unitLetter_mem h c hc)

/-! ### Reading -/

/-- What stops a scan is the first character of the rest. -/
theorem takeWhile_dropWhile_append {p : Char → Bool} {front rest : List Char}
    (hfront : ∀ c ∈ front, p c = true) (hrest : ∀ c, rest.head? = some c → p c = false) :
    (front ++ rest).takeWhile p = front ∧ (front ++ rest).dropWhile p = rest := by
  rw [List.takeWhile_append_of_pos hfront, List.dropWhile_append_of_pos hfront]
  cases rest with
  | nil => exact ⟨List.append_nil front, rfl⟩
  | cons c rest =>
    have hc := hrest c rfl
    rw [List.takeWhile_cons_of_neg (by simp [hc]), List.dropWhile_cons_of_neg (by simp [hc])]
    exact ⟨List.append_nil front, rfl⟩

/-- What is read after the whole digits: a point with digits, if there are any, and the rest. -/
def readPointed : List Char → List Char × List Char
  | '.' :: cs =>
    if (cs.takeWhile isDigit).isEmpty then ([], '.' :: cs)
    else (cs.takeWhile isDigit, cs.dropWhile isDigit)
  | cs => ([], cs)

theorem readText_eq (cs : List Char) : readText cs =
    if (cs.takeWhile isDigit).isEmpty then none
    else
      let rest := (readPointed (cs.dropWhile isDigit)).2.dropWhile isBlank
      if rest.isEmpty || isUnit rest then
        some ⟨cs.takeWhile isDigit, (readPointed (cs.dropWhile isDigit)).1, rest⟩
      else none := by
  rw [readText]
  generalize cs.dropWhile isDigit = rest
  fun_cases readPointed rest with
  | case1 r hempty => simp only [hempty, if_true]
  | case2 r hdigits => simp only [hdigits, if_false, Bool.false_eq_true]
  | case3 rest hrest =>
    split
    next fraction unread heq =>
      split at heq
      next r => exact absurd rfl (hrest r)
      next =>
        rw [Prod.mk.injEq] at heq
        rw [← heq.1, ← heq.2]

theorem readPointed_spec (cs : List Char) :
    cs = pointed (readPointed cs).1 ++ (readPointed cs).2 ∧
      ∀ c ∈ (readPointed cs).1, isDigit c = true := by
  fun_cases readPointed cs with
  | case1 cs hempty => exact ⟨rfl, nofun⟩
  | case2 cs hdigits =>
    obtain ⟨c, digits, hcs⟩ := List.exists_cons_of_ne_nil (mt List.isEmpty_iff.2 hdigits)
    refine ⟨?_, fun c hc => List.mem_takeWhile_imp hc⟩
    rw [hcs, pointed, List.cons_append, ← hcs, List.takeWhile_append_dropWhile]
    exact nofun
  | case3 cs hcs => exact ⟨rfl, nofun⟩

theorem readPointed_append {fraction rest : List Char} (h : ∀ c ∈ fraction, isDigit c = true)
    (hrest : ∀ c, rest.head? = some c → isDigit c = false ∧ c ≠ '.') :
    readPointed (pointed fraction ++ rest) = (fraction, rest) := by
  cases fraction with
  | nil =>
    show readPointed rest = ([], rest)
    fun_cases readPointed rest with
    | case1 cs hempty => rfl
    | case2 cs hdigits => exact absurd rfl (hrest '.' rfl).2
    | case3 cs hcs => rfl
  | cons c fraction =>
    obtain ⟨htake, hdrop⟩ := takeWhile_dropWhile_append h fun c hc => (hrest c hc).1
    show readPointed ('.' :: (c :: fraction ++ rest)) = _
    rw [readPointed, htake, hdrop, if_neg (by simp)]

/-- **The texts that are read are those of this form.** -/
theorem readText_eq_some_iff {cs : List Char} {p : Parts} :
    readText cs = some p ↔ p.Spelled cs := by
  rw [readText_eq]
  constructor
  · intro h
    split at h
    next => exact nomatch h
    next hwhole =>
      dsimp only at h
      split at h
      next hunit =>
        obtain ⟨hrest, hfraction⟩ := readPointed_spec (cs.dropWhile isDigit)
        rw [← Option.some.inj h]
        refine ⟨mt List.isEmpty_iff.2 hwhole, fun c hc => List.mem_takeWhile_imp hc, hfraction, ?_,
          (readPointed (cs.dropWhile isDigit)).2.takeWhile isBlank,
          fun c hc => List.mem_takeWhile_imp hc, ?_⟩
        · rwa [Bool.or_eq_true, List.isEmpty_iff] at hunit
        · rw [List.append_assoc, List.takeWhile_append_dropWhile, List.append_assoc, ← hrest,
            List.takeWhile_append_dropWhile]
      next => exact nomatch h
  · rintro ⟨hne, hwhole, hfraction, hunit, gap, hgap, rfl⟩
    have hgapUnit : ∀ c, (gap ++ p.unit).head? = some c → isDigit c = false ∧ c ≠ '.' := by
      intro c hc
      rcases List.mem_append.1 (List.mem_of_mem_head? hc) with hmem | hmem
      · have hblank := hgap c hmem
        refine ⟨isDigit_of_isBlank hblank, ?_⟩
        rintro rfl
        exact absurd hblank (by decide)
      · exact ⟨(apart_of_unit hunit c hmem).1, (apart_of_unit hunit c hmem).2.2⟩
    have hpointed : ∀ c, (pointed p.fraction ++ (gap ++ p.unit)).head? = some c →
        isDigit c = false := by
      intro c hc
      cases hp : p.fraction with
      | nil =>
        rw [hp] at hc
        exact (hgapUnit c hc).1
      | cons d digits =>
        rw [hp] at hc
        rw [← Option.some.inj hc]
        decide +kernel
    obtain ⟨htake, hdrop⟩ := takeWhile_dropWhile_append hwhole hpointed
    obtain ⟨-, hblank⟩ := takeWhile_dropWhile_append hgap fun c hc =>
      (apart_of_unit hunit c (List.mem_of_mem_head? hc)).2.1
    have hunit' : (p.unit.isEmpty || isUnit p.unit) = true := by
      rwa [Bool.or_eq_true, List.isEmpty_iff]
    simp only [List.append_assoc] at htake hdrop ⊢
    rw [htake, hdrop, readPointed_append hfraction hgapUnit, hblank,
      if_neg (mt List.isEmpty_iff.1 hne)]
    exact if_pos hunit'

/-! ### Units -/

/-- A unit in letters of any case, as a power of 1024; no unit means bytes. -/
def UnitPower (unit : List Char) (power : Nat) : Prop :=
  (unit = [] ∧ power = 0) ∨ (unit.map Char.toUpper, power) ∈ units

theorem unitShift_of_unitPower {unit : List Char} {power : Nat} (h : UnitPower unit power) :
    unitShift unit = .ok (10 * power) := by
  have hlookup : ∀ u ∈ units, units.lookup u.1 = some u.2 ∧ u.1 ≠ [] := by decide
  rcases h with ⟨rfl, rfl⟩ | hmem
  · rfl
  · obtain ⟨hfound, hne⟩ := hlookup _ hmem
    rw [unitShift, if_neg (by simpa using hne), hfound]

theorem UnitPower.le {unit : List Char} {power : Nat} (h : UnitPower unit power) : power ≤ 4 := by
  have hunits : ∀ u ∈ units, u.2 ≤ 4 := by decide
  rcases h with ⟨-, rfl⟩ | hmem
  · exact Nat.zero_le 4
  · exact hunits _ hmem

/-- The sign for the letter K is taken for this letter, but not found among the units. -/
theorem unitShift_of_kelvinSign {unit : List Char} (h : kelvinSign ∈ unit) :
    unitShift unit = .error (.misuse .noSuchEntry) := by
  have hnone : units.lookup (unit.map Char.toUpper) = none := by
    have hunits : ∀ u ∈ units, kelvinSign ∉ u.1 := by decide
    rw [List.lookup_eq_none_iff]
    intro u hu
    rw [bne_iff_ne]
    rintro heq
    refine hunits u hu ?_
    rw [← heq]
    exact List.mem_map.2 ⟨kelvinSign, h, by decide⟩
  rw [unitShift, if_neg (by simpa using List.ne_nil_of_mem h), hnone]

theorem UnitPower.kelvinSign_notMem {unit : List Char} {power : Nat} (h : UnitPower unit power) :
    kelvinSign ∉ unit := fun hmem =>
  nomatch (unitShift_of_kelvinSign hmem).symm.trans (unitShift_of_unitPower h)

theorem map_unitLetter {unit : List Char} (h : kelvinSign ∉ unit) :
    unit.map unitLetter = unit.map Char.toUpper :=
  List.map_congr_left fun _ hc => unitLetter_of_ne fun heq => h (heq ▸ hc)

/-- A unit that holds no such sign is one in letters of any case. -/
theorem exists_unitPower {unit : List Char} (h : unit = [] ∨ isUnit unit = true)
    (hplain : kelvinSign ∉ unit) : ∃ power, UnitPower unit power := by
  rcases h with rfl | h
  · exact ⟨0, Or.inl ⟨rfl, rfl⟩⟩
  · obtain ⟨u, hu, hname⟩ := List.any_eq_true.1 h
    refine ⟨u.2, Or.inr ?_⟩
    rw [← map_unitLetter hplain, ← beq_iff_eq.1 hname]
    exact hu

theorem UnitPower.eq_nil_or_isUnit {unit : List Char} {power : Nat} (h : UnitPower unit power) :
    unit = [] ∨ isUnit unit = true := by
  rcases id h with ⟨rfl, -⟩ | hmem
  · exact Or.inl rfl
  · refine Or.inr (List.any_eq_true.2 ⟨_, hmem, ?_⟩)
    rw [map_unitLetter h.kelvinSign_notMem, beq_self_eq_true]

/-- Digits with a unit after them are a size. -/
theorem spelled_digits {digits unit : List Char} {power : Nat} (hne : digits ≠ [])
    (hdigits : ∀ c ∈ digits, isDigit c = true) (hunit : UnitPower unit power) :
    Parts.Spelled ⟨digits, [], unit⟩ (stripWhere isBlank (digits ++ unit)) := by
  have hplain : ∀ c ∈ digits ++ unit, isBlank c = false := by
    intro c hc
    rcases List.mem_append.1 hc with hdigit | hletter
    · by_contra hblank
      exact absurd (hdigits c hdigit)
        (by simp [isDigit_of_isBlank (Bool.not_eq_false _ ▸ hblank)])
    · exact (apart_of_unit hunit.eq_nil_or_isUnit c hletter).2.1
  rw [stripWhere_of_forall hplain]
  refine ⟨hne, hdigits, nofun, hunit.eq_nil_or_isUnit, [], nofun, ?_⟩
  rw [pointed, List.append_nil, List.append_nil]

end SchemaCompiler.FileSize
