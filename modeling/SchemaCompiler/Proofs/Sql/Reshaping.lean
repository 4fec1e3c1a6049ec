import Mathlib.Data.List.TakeWhile
import SchemaCompiler.Proofs.Sql.Numeral
import SchemaCompiler.Text.Blank
import SchemaCompiler.Text.Case

/-!
# Closed texts in another shape

Some texts of a schema are not written as they are: events are put in capitals, and the query of a
view loses the blanks around it.  Closed texts stay closed: `closed_upper` and `closed_strip`.
-/

namespace SchemaCompiler.Sql

/-! ### Capitals -/

/-- A way to replace characters that keeps special ones and brings in no new ones. -/
structure KeepsMarks (f : Char → List Char) : Prop where
  special : ∀ c, isOrdinary c ≠ true → f c = [c]
  ordinary : ∀ c, isOrdinary c = true → Ordinary (f c)
  ne_nil : ∀ c, f c ≠ []

/-- A special character at the front was at the front before. -/
theorem KeepsMarks.head? {f : Char → List Char} (h : KeepsMarks f) {c : Char}
    (hc : isOrdinary c ≠ true) {cs : List Char} (hhead : (cs.flatMap f).head? = some c) :
    ∃ rest, cs = c :: rest := by
  cases cs with
  | nil => simp at hhead
  | cons d cs =>
    rw [List.flatMap_cons, List.head?_append_of_ne_nil _ (h.ne_nil d)] at hhead
    by_cases hd : isOrdinary d = true
    · exact absurd (h.ordinary d hd c (List.mem_of_head? hhead)) hc
    · rw [h.special d hd, List.head?_cons, Option.some.injEq] at hhead
      exact ⟨cs, by rw [hhead]⟩

/-- **Such a replacement does not change the scan.** -/
theorem KeepsMarks.scan_flatMap {f : Char → List Char} (h : KeepsMarks f) (mode : Mode)
    (cs : List Char) : Sql.scan mode (cs.flatMap f) = Sql.scan mode cs := by
  have hquote : f '\'' = ['\''] := h.special _ (by decide)
  have hdollar : f '$' = ['$'] := h.special _ (by decide)
  have hdash : f '-' = ['-'] := h.special _ (by decide)
  have hsemicolon : f ';' = [';'] := h.special _ (by decide)
  have hfeed : f '\n' = ['\n'] := h.special _ (by decide)
  have hreturn : f '\r' = ['\r'] := h.special _ (by decide)
  fun_induction scan mode cs with
  | case1 mode => rw [List.flatMap_nil, scan]
  | case2 cs ih =>
    rw [List.flatMap_cons, hquote]
    exact ih
  | case3 cs ih =>
    rw [List.flatMap_cons, List.flatMap_cons, hdollar]
    exact ih
  | case4 cs ih =>
    rw [List.flatMap_cons, List.flatMap_cons, hdash, ← ih]
    rfl
  | case5 cs ih =>
    rw [List.flatMap_cons, hsemicolon, ← ih]
    rfl
  | case6 c cs hc hcs hcs' hc' ih =>
    rw [List.flatMap_cons]
    by_cases hord : isOrdinary c = true
    · rw [(h.ordinary c hord).scan_append, ih]
    · rw [h.special c hord, List.singleton_append, scan_plain_cons hc _ _ hc', ih]
      · rintro rfl hhead
        obtain ⟨rest, rfl⟩ := h.head? (by decide) hhead
        exact hcs rest rfl rfl
      · rintro rfl hhead
        obtain ⟨rest, rfl⟩ := h.head? (by decide) hhead
        exact hcs' rest rfl rfl
  | case7 cs ih =>
    rw [List.flatMap_cons, List.flatMap_cons, hquote]
    exact ih
  | case8 cs hcs ih =>
    rw [List.flatMap_cons, hquote, List.singleton_append, scan_literal_end, ih]
    intro hhead
    obtain ⟨rest, rfl⟩ := h.head? (by decide) hhead
    exact hcs rest rfl
  | case9 c cs _ hc ih =>
    rw [List.flatMap_cons]
    by_cases hord : isOrdinary c = true
    · rw [(h.ordinary c hord).scan_append, ih]
    · rw [h.special c hord, List.singleton_append, scan_literal_cons hc, ih]
  | case10 cs ih =>
    rw [List.flatMap_cons, List.flatMap_cons, hdollar]
    exact ih
  | case11 c cs hcs ih =>
    rw [List.flatMap_cons]
    by_cases hord : isOrdinary c = true
    · rw [(h.ordinary c hord).scan_append, ih]
    · rw [h.special c hord, List.singleton_append, scan_body_cons, ih]
      rintro rfl hhead
      obtain ⟨rest, rfl⟩ := h.head? (by decide) hhead
      exact hcs rest rfl rfl
  | case12 cs ih =>
    rw [List.flatMap_cons, hfeed]
    exact ih
  | case13 cs ih =>
    rw [List.flatMap_cons, hreturn]
    exact ih
  | case14 c cs hc hc' ih =>
    rw [List.flatMap_cons]
    by_cases hord : isOrdinary c = true
    · rw [(h.ordinary c hord).scan_append, ih]
    · rw [h.special c hord, List.singleton_append, scan_comment_cons hc hc', ih]

/-- All letters that capitals are made of come after the special characters. -/
theorem expansions_above : ∀ e ∈ Text.upperExpansions, e.2 ≠ [] ∧ ∀ n ∈ e.2, 59 < n := by
  decide +kernel

theorem runs_above : ∀ r ∈ Text.upperRuns, 59 < (r.1 : Int) + r.2.2.2 := by
  decide +kernel

theorem toNat_ofNat (n : Nat) : (Char.ofNat n).toNat = n ∨ (Char.ofNat n).toNat = 0 := by
  rw [Char.ofNat]
  split
  · exact Or.inl rfl
  · exact Or.inr rfl

theorem isOrdinary_ofNat {n : Nat} (h : 59 < n) : isOrdinary (Char.ofNat n) = true := by
  rw [isOrdinary_iff]
  intro hmem
  have hcodes : specials.all (fun c => 0 < c.toNat && c.toNat ≤ 59) = true := by decide
  have hcode := List.all_eq_true.1 hcodes _ hmem
  rw [Bool.and_eq_true, decide_eq_true_eq, decide_eq_true_eq] at hcode
  rcases toNat_ofNat n with hn | hn <;> omega

theorem upperChar_special {c : Char} (h : isOrdinary c ≠ true) : Text.upperChar c = [c] := by
  have hall : specials.all (fun c => Text.upperChar c == [c]) = true := by decide +kernel
  have hmem : c ∈ specials := by
    by_contra hmem
    exact h (isOrdinary_iff.2 hmem)
  exact eq_of_beq (List.all_eq_true.1 hall c hmem)

theorem upperChar_spec (c : Char) :
    Text.upperChar c ≠ [] ∧ (isOrdinary c = true → Ordinary (Text.upperChar c)) := by
  unfold Text.upperChar
  split
  next letters hletters =>
    obtain ⟨before, after, hmem, -⟩ := List.lookup_eq_some_iff.1 hletters
    obtain ⟨hne, habove⟩ := expansions_above (c.toNat, letters) (by simp [hmem])
    refine ⟨by simpa using hne, fun _ d hd => ?_⟩
    obtain ⟨n, hn, rfl⟩ := List.mem_map.1 hd
    exact isOrdinary_ofNat (habove n hn)
  next =>
    split
    next first last step distance hfind =>
      refine ⟨by simp, fun _ d hd => ?_⟩
      rw [List.mem_singleton.1 hd]
      have habove := runs_above _ (List.mem_of_find?_eq_some hfind)
      have hfirst := List.find?_some hfind
      simp only [Bool.and_eq_true, decide_eq_true_eq] at hfirst
      refine isOrdinary_ofNat ?_
      simp only at habove
      omega
    next =>
      refine ⟨by simp, fun hc d hd => ?_⟩
      rwa [List.mem_singleton.1 hd]

theorem keepsMarks_upperChar : KeepsMarks Text.upperChar where
  special _ h := upperChar_special h
  ordinary c := (upperChar_spec c).2
  ne_nil c := (upperChar_spec c).1

/-- **A closed text stays closed in capitals**, in any script. -/
theorem closed_upper {s : String} (h : Closed s) : Closed (Text.upper s) := by
  rw [Closed, Ends, Text.upper, String.toList_ofList, keepsMarks_upperChar.scan_flatMap]
  exact h

/-! ### Blanks at the ends -/

theorem isMark_of_isBlank {c : Char} (h : Text.isBlank c = true) : isMark c = false ∧ c ≠ ';' := by
  have hspecial : ['\'', '$', '-', ';'].all (fun d => !Text.isBlank d) = true := by decide
  have hne : ∀ d ∈ ['\'', '$', '-', ';'], c ≠ d := by
    intro d hd heq
    have hblank := List.all_eq_true.1 hspecial d hd
    rw [← heq, h] at hblank
    exact Bool.false_ne_true hblank
  refine ⟨?_, hne _ (by simp)⟩
  simp [isMark, hne]

/-- Blanks are plain text. -/
theorem scan_blanks {xs : List Char} (h : ∀ c ∈ xs, Text.isBlank c = true) (ys : List Char) :
    scan .plain (xs ++ ys) = scan .plain ys := by
  induction xs with
  | nil => rfl
  | cons x xs ih =>
    obtain ⟨hmark, hsemicolon⟩ := isMark_of_isBlank (h x List.mem_cons_self)
    have hne : ∀ d, isMark d = true → x ≠ d := by
      rintro d hd rfl
      rw [hmark] at hd
      exact absurd hd (by decide)
    rw [List.cons_append, scan_plain_cons (hne _ (by decide))
      (fun heq => absurd heq (hne _ (by decide))) (fun heq => absurd heq (hne _ (by decide)))
      hsemicolon]
    exact ih fun c hc => h c (List.mem_cons_of_mem x hc)

/-- Nothing but a comment ends in a comment. -/
theorem comments_pos (mode : Mode) (cs : List Char) (hmode : mode ≠ .comment)
    (h : (scan mode cs).mode = .comment) : 0 < (scan mode cs).comments := by
  fun_induction scan mode cs with
  | case1 mode => exact absurd h hmode
  | case4 cs ih => exact Nat.lt_of_lt_of_le Nat.one_pos (Nat.le_add_right 1 _)
  | case5 cs ih => exact Nat.lt_of_lt_of_le (ih (by decide) h) (Nat.le_add_left _ 0)
  | case2 cs ih | case3 cs ih | case7 cs ih | case10 cs ih => exact ih (by decide) h
  | case6 c cs _ _ _ _ ih => exact ih (by decide) h
  | case8 cs _ ih | case9 c cs _ _ ih | case11 c cs _ ih => exact ih (by decide) h
  | case12 | case13 | case14 => exact absurd rfl hmode

/-- Blanks do not lead out of a literal or a body. -/
theorem scan_blanks_mode {xs : List Char} (h : ∀ c ∈ xs, Text.isBlank c = true) {mode : Mode}
    (hmode : mode = .literal ∨ mode = .body) : (scan mode xs).mode = mode := by
  induction xs with
  | nil => rw [scan]
  | cons x xs ih =>
    have hx := (isMark_of_isBlank (h x List.mem_cons_self)).1
    have hrest := ih fun c hc => h c (List.mem_cons_of_mem x hc)
    rcases hmode with rfl | rfl
    · rwa [scan_literal_cons]
      rintro rfl
      exact absurd hx (by decide)
    · rwa [scan_body_cons]
      rintro rfl
      exact absurd hx (by decide)

theorem neutral_of_blank {xs : List Char} (h : ∀ c ∈ xs, Text.isBlank c = true) : Neutral xs :=
  fun c hc => (isMark_of_isBlank (h c (List.mem_of_head? hc))).1

/-- Blanks at the end of a closed text belong to its plain text. -/
theorem scan_of_append_blanks {xs ys : List Char} (hy : ∀ c ∈ ys, Text.isBlank c = true)
    (h : scan .plain (xs ++ ys) = ⟨.plain, 0, 0⟩) : scan .plain xs = ⟨.plain, 0, 0⟩ := by
  rw [scan_append _ _ _ (neutral_of_blank hy)] at h
  obtain ⟨hmode, hsemicolons, hcomments⟩ := Scan.mk.inj h
  have hs : (scan .plain xs).semicolons = 0 := Nat.eq_zero_of_add_eq_zero_right hsemicolons
  have hc : (scan .plain xs).comments = 0 := Nat.eq_zero_of_add_eq_zero_right hcomments
  have hm : (scan .plain xs).mode = .plain := by
    cases hxs : (scan .plain xs).mode with
    | plain => rfl
    | literal => rw [hxs, scan_blanks_mode hy (.inl rfl)] at hmode; exact absurd hmode nofun
    | body => rw [hxs, scan_blanks_mode hy (.inr rfl)] at hmode; exact absurd hmode nofun
    | comment =>
      have hpos := comments_pos .plain xs nofun hxs
      omega
  rw [show scan .plain xs = ⟨_, _, _⟩ from rfl, hm, hs, hc]

/-- A text without the blanks around it, and these blanks. -/
theorem stripWhere_eq (p : Char → Bool) (cs : List Char) :
    ∃ front back, cs = front ++ Text.stripWhere p cs ++ back ∧ (∀ c ∈ front, p c = true) ∧
      ∀ c ∈ back, p c = true := by
  refine ⟨cs.takeWhile p, ((cs.dropWhile p).reverse.takeWhile p).reverse, ?_,
    fun c hc => List.mem_takeWhile_imp hc,
    fun c hc => List.mem_takeWhile_imp (List.mem_reverse.1 hc)⟩
  rw [List.append_assoc, Text.stripWhere, ← List.reverse_append, List.takeWhile_append_dropWhile,
    List.reverse_reverse, List.takeWhile_append_dropWhile]

/-- **A closed text stays closed without the blanks around it.** -/
theorem closed_strip {s : String} (h : Closed s) : Closed (Text.strip s) := by
  obtain ⟨front, back, hsplit, hfront, hback⟩ := stripWhere_eq Text.isBlank s.toList
  rw [Closed, Ends, hsplit, List.append_assoc, scan_blanks hfront] at h
  rw [Closed, Ends, Text.strip, String.toList_ofList]
  exact scan_of_append_blanks hback h

end SchemaCompiler.Sql
