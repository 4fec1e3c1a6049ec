import Mathlib.Data.List.Find
import Mathlib.Data.List.TakeWhile
import SchemaCompiler.Proofs.Json.Steps
import SchemaCompiler.Proofs.Source

/-!
# Line ends and space in JSON text

A text that is JSON stays so, and stands for the same value, if its carriage returns are turned into
line feeds or if the space at its end is cut off.  Between the tokens all space is the same, inside
of a string there is neither a carriage return nor the end of the text, and a number or a constant
ends before any space.

* `Json.Alike` — a text with other line ends, or with less space at its end;
* `Json.reads_alike` — **whatever is read from a text is read from one that is alike**, and with any
  fuel that is enough for that one;
* `Json.parse_normalizeNewlines`, `Json.parse_strip` — **a text is JSON for the same value with line
  feeds for all line ends, or without the blanks at its ends**.
-/

namespace SchemaCompiler.Json

/-! ### Texts that are alike -/

/-- A text with line feeds for some of its carriage returns, and less space at its end. -/
inductive Alike : List Char → List Char → Prop
  | space {cs : List Char} (h : ∀ c ∈ cs, isSpace c = true) : Alike cs []
  | char {cs cs' : List Char} (c : Char) (h : Alike cs cs') : Alike (c :: cs) (c :: cs')
  | lineEnd {cs cs' : List Char} (h : Alike cs cs') : Alike ('\r' :: cs) ('\n' :: cs')
  | pair {cs cs' : List Char} (h : Alike cs cs') : Alike ('\r' :: '\n' :: cs) ('\n' :: cs')

theorem Alike.eq_nil {cs : List Char} (h : Alike [] cs) : cs = [] := by
  cases h
  rfl

theorem alike_normalizeNewlineChars (cs : List Char) :
    Alike cs (Text.normalizeNewlineChars cs) := by
  induction cs using Text.normalizeNewlineChars.induct with
  | case1 => exact .space nofun
  | case2 cs ih => exact .pair ih
  | case3 c cs hpair ih =>
    rw [Text.normalizeNewlineChars.eq_3 c cs hpair]
    by_cases hc : c = '\r'
    · rw [if_pos hc, hc]
      exact .lineEnd ih
    · rw [if_neg hc]
      exact .char c ih

theorem alike_append_space {space : List Char} (h : ∀ c ∈ space, isSpace c = true)
    (cs : List Char) : Alike (cs ++ space) cs := by
  induction cs with
  | nil => exact .space h
  | cons c cs ih => exact .char c ih

namespace Alike

variable {cs cs' front : List Char} {c : Char}

theorem length_le (h : Alike cs cs') : cs'.length ≤ cs.length := by
  induction h with
  | space h => exact Nat.zero_le _
  | char c h ih => exact Nat.succ_le_succ ih
  | lineEnd h ih => exact Nat.succ_le_succ ih
  | pair h ih => exact Nat.le_succ_of_le (Nat.succ_le_succ ih)

/-- A character that is no carriage return stays, unless nothing but space is left. -/
theorem of_cons_of_mem (h : Alike (c :: cs) cs') (hc : c ≠ '\r') {mark : Char}
    (hmark : isSpace mark = false) (hmem : mark ∈ c :: cs) :
    ∃ rest, cs' = c :: rest ∧ Alike cs rest := by
  cases h with
  | space h =>
    rw [h mark hmem] at hmark
    exact nomatch hmark
  | char c h => exact ⟨_, rfl, h⟩
  | lineEnd h => exact absurd rfl hc
  | pair h => exact absurd rfl hc

theorem of_cons (h : Alike (c :: cs) cs') (hc : isSpace c = false) :
    ∃ rest, cs' = c :: rest ∧ Alike cs rest :=
  h.of_cons_of_mem (by rintro rfl; exact nomatch hc) hc List.mem_cons_self

theorem of_cons_right (h : Alike cs (c :: cs')) (hc : isSpace c = false) :
    ∃ rest, cs = c :: rest ∧ Alike rest cs' := by
  cases h with
  | char c h => exact ⟨_, rfl, h⟩
  | lineEnd h => exact nomatch hc
  | pair h => exact nomatch hc

theorem of_append (h : Alike (front ++ cs) cs') (hfront : ∀ c ∈ front, isSpace c = false) :
    ∃ rest, cs' = front ++ rest ∧ Alike cs rest := by
  induction front generalizing cs' with
  | nil => exact ⟨cs', rfl, h⟩
  | cons c front ih =>
    obtain ⟨hc, hfront⟩ := List.forall_mem_cons.1 hfront
    obtain ⟨rest, rfl, hrest⟩ := of_cons h hc
    obtain ⟨rest, rfl, halike⟩ := ih hrest hfront
    exact ⟨rest, rfl, halike⟩

theorem of_append_right (h : Alike cs (front ++ cs')) (hfront : ∀ c ∈ front, isSpace c = false) :
    ∃ rest, cs = front ++ rest ∧ Alike rest cs' := by
  induction front generalizing cs with
  | nil => exact ⟨cs, rfl, h⟩
  | cons c front ih =>
    obtain ⟨hc, hfront⟩ := List.forall_mem_cons.1 hfront
    obtain ⟨rest, rfl, hrest⟩ := of_cons_right h hc
    obtain ⟨rest, rfl, halike⟩ := ih hrest hfront
    exact ⟨rest, rfl, halike⟩

/-- Texts that are alike start with the same tokens. -/
theorem isPrefixOf_eq (h : Alike cs cs') (hfront : ∀ c ∈ front, isSpace c = false) :
    front.isPrefixOf cs' = front.isPrefixOf cs := by
  rw [Bool.eq_iff_iff, List.isPrefixOf_iff_prefix, List.isPrefixOf_iff_prefix]
  constructor
  · rintro ⟨rest', rfl⟩
    obtain ⟨rest, rfl, -⟩ := h.of_append_right hfront
    exact List.prefix_append front rest
  · rintro ⟨rest, rfl⟩
    obtain ⟨rest', rfl, -⟩ := h.of_append hfront
    exact List.prefix_append front rest'

theorem head?_eq_some_iff (h : Alike cs cs') (hc : isSpace c = false) :
    cs'.head? = some c ↔ cs.head? = some c := by
  constructor
  · intro hhead
    obtain ⟨rest, rfl⟩ := List.head?_eq_some_iff.1 hhead
    obtain ⟨rest, rfl, -⟩ := h.of_cons_right hc
    rfl
  · intro hhead
    obtain ⟨rest, rfl⟩ := List.head?_eq_some_iff.1 hhead
    obtain ⟨rest, rfl, -⟩ := h.of_cons hc
    rfl

theorem dropWhile_isSpace (h : Alike cs cs') :
    Alike (cs.dropWhile isSpace) (cs'.dropWhile isSpace) := by
  induction h with
  | space h =>
    rw [List.dropWhile_eq_nil_iff.2 h]
    exact .space nofun
  | char c h ih =>
    rw [List.dropWhile_cons, List.dropWhile_cons]
    split
    · exact ih
    · exact .char c h
  | lineEnd h ih => exact ih
  | pair h ih => exact ih

/-- A run of characters that are no space is the same at the start of texts that are alike, and so
is what follows it. -/
theorem takeWhile (h : Alike cs cs') {p : Char → Bool} (hp : ∀ c, p c = true → isSpace c = false) :
    cs'.takeWhile p = cs.takeWhile p ∧ Alike (cs.dropWhile p) (cs'.dropWhile p) := by
  have hnot : ∀ c, isSpace c = true → p c = false := fun c hc => by
    rw [Bool.eq_false_iff]
    intro hpc
    rw [hp c hpc] at hc
    exact nomatch hc
  induction h with
  | @space cs h =>
    cases cs with
    | nil => exact ⟨rfl, .space nofun⟩
    | cons c cs =>
      rw [List.takeWhile_cons, List.dropWhile_cons, hnot c (h c List.mem_cons_self)]
      exact ⟨rfl, .space h⟩
  | char c h ih =>
    rw [List.takeWhile_cons, List.takeWhile_cons, List.dropWhile_cons, List.dropWhile_cons]
    split
    · exact ⟨congrArg (c :: ·) ih.1, ih.2⟩
    · exact ⟨rfl, .char c h⟩
  | lineEnd h =>
    simp only [List.takeWhile_cons, List.dropWhile_cons, hnot '\r' rfl, hnot '\n' rfl]
    exact ⟨rfl, .lineEnd h⟩
  | pair h =>
    simp only [List.takeWhile_cons, List.dropWhile_cons, hnot '\r' rfl, hnot '\n' rfl]
    exact ⟨rfl, .pair h⟩

end Alike

/-! ### Numbers and constants -/

/-- A character of a kind that none of the four space characters is of is no space. -/
theorem isSpace_eq_false {p : Char → Bool} (hp : [' ', '\t', '\n', '\r'].any p = false)
    {c : Char} (h : p c = true) : isSpace c = false := by
  rw [Bool.eq_false_iff]
  intro hspace
  have hmem : c ∈ [' ', '\t', '\n', '\r'] := by
    simpa [isSpace, or_assoc] using hspace
  exact List.any_eq_false.1 hp c hmem h

theorem isSpace_of_isNumberDigit {c : Char} (h : isNumberDigit c = true) : isSpace c = false :=
  isSpace_eq_false (by decide) h

/-- What is left of two texts behind a front that they share is alike. -/
structure Past (cs cs' rest rest' : List Char) : Prop where
  alike : Alike rest rest'
  front : ∃ front, cs = front ++ rest ∧ cs' = front ++ rest'

namespace Past

variable {cs cs' mid mid' rest rest' : List Char}

theorem refl (h : Alike cs cs') : Past cs cs' cs cs' := ⟨h, [], rfl, rfl⟩

theorem trans (h : Past cs cs' mid mid') (h' : Past mid mid' rest rest') :
    Past cs cs' rest rest' := by
  obtain ⟨front, rfl, rfl⟩ := h.front
  obtain ⟨more, rfl, rfl⟩ := h'.front
  exact ⟨h'.alike, front ++ more, (List.append_assoc ..).symm, (List.append_assoc ..).symm⟩

theorem of_front (h : Alike cs cs') {front : List Char} (hstart : front <+: cs)
    (hfront : ∀ c ∈ front, isSpace c = false) :
    Past cs cs' (cs.drop front.length) (cs'.drop front.length) := by
  obtain ⟨rest, rfl⟩ := hstart
  obtain ⟨rest', rfl, halike⟩ := h.of_append hfront
  rw [List.drop_left, List.drop_left]
  exact ⟨halike, front, rfl, rfl⟩

/-- The front is as long in one text as in the other. -/
theorem drop_alike (h : Past cs cs' rest rest') {n : Nat}
    (hrest : Alike (rest.drop n) (rest'.drop n)) :
    cs'.length - rest'.length = cs.length - rest.length ∧
      Alike (cs.drop (cs.length - rest.length + n)) (cs'.drop (cs.length - rest.length + n)) := by
  obtain ⟨front, rfl, rfl⟩ := h.front
  rw [List.length_append, List.length_append, Nat.add_sub_cancel, Nat.add_sub_cancel,
    ← List.drop_drop, ← List.drop_drop, List.drop_left, List.drop_left]
  exact ⟨rfl, hrest⟩

end Past

section Numbers

variable {cs cs' : List Char} (h : Alike cs cs')
include h

theorem Alike.cons_cases {c : Char} (hc : isSpace c = false) :
    (∃ rest rest', cs = c :: rest ∧ cs' = c :: rest' ∧ Alike rest rest') ∨
      cs.head? ≠ some c ∧ cs'.head? ≠ some c := by
  by_cases hhead : cs.head? = some c
  · obtain ⟨rest, rfl⟩ := List.head?_eq_some_iff.1 hhead
    obtain ⟨rest', rfl, halike⟩ := h.of_cons hc
    exact .inl ⟨rest, rest', rfl, rfl, halike⟩
  · exact .inr ⟨hhead, mt (h.head?_eq_some_iff hc).1 hhead⟩

theorem takeWhile_isNumberDigit_alike :
    cs'.takeWhile isNumberDigit = cs.takeWhile isNumberDigit ∧
      Alike (cs.drop (cs.takeWhile isNumberDigit).length)
        (cs'.drop (cs.takeWhile isNumberDigit).length) :=
  ⟨(h.takeWhile fun _ => isSpace_of_isNumberDigit).1,
    (Past.of_front h (List.takeWhile_prefix _) fun _ hc =>
      isSpace_of_isNumberDigit (List.mem_takeWhile_imp hc)).alike⟩

theorem signedDigits_alike :
    signedDigits cs' = signedDigits cs ∧
      Alike (cs.drop ((signedDigits cs).2.2 + (signedDigits cs).2.1.length))
        (cs'.drop ((signedDigits cs).2.2 + (signedDigits cs).2.1.length)) := by
  have hplain : ∀ r : List Char, r.head? ≠ some '-' → r.head? ≠ some '+' →
      signedDigits r = (false, r.takeWhile isNumberDigit, 0) := by
    intro r hminus hplus
    unfold signedDigits
    split
    · exact absurd rfl hminus
    · exact absurd rfl hplus
    · rfl
  have hsigned : ∀ (negative : Bool) (r r' : List Char), Alike r r' →
      (negative, r'.takeWhile isNumberDigit, 1) = (negative, r.takeWhile isNumberDigit, 1) ∧
        ∀ c : Char, Alike ((c :: r).drop (1 + (r.takeWhile isNumberDigit).length))
          ((c :: r').drop (1 + (r.takeWhile isNumberDigit).length)) := by
    intro negative r r' halike
    obtain ⟨hdigits, hdrop⟩ := takeWhile_isNumberDigit_alike halike
    rw [hdigits, Nat.add_comm]
    exact ⟨rfl, fun _ => hdrop⟩
  rcases h.cons_cases (c := '-') rfl with ⟨r, r', rfl, rfl, hr⟩ | ⟨hminus, hminus'⟩
  · exact ⟨(hsigned true r r' hr).1, (hsigned true r r' hr).2 '-'⟩
  rcases h.cons_cases (c := '+') rfl with ⟨r, r', rfl, rfl, hr⟩ | ⟨hplus, hplus'⟩
  · exact ⟨(hsigned false r r' hr).1, (hsigned false r r' hr).2 '+'⟩
  · obtain ⟨hdigits, hdrop⟩ := takeWhile_isNumberDigit_alike h
    rw [hplain cs hminus hplus, hplain cs' hminus' hplus', hdigits, Nat.zero_add]
    exact ⟨rfl, hdrop⟩

theorem exponent?_alike :
    exponent? cs' = exponent? cs ∧
      Alike (cs.drop (((exponent? cs).map Prod.snd).getD 0))
        (cs'.drop (((exponent? cs).map Prod.snd).getD 0)) := by
  have hplain : ∀ r : List Char, r.head? ≠ some 'e' → r.head? ≠ some 'E' → exponent? r = none := by
    intro r hlower hupper
    cases r with
    | nil => rfl
    | cons c r =>
      rw [exponent?_cons, if_neg]
      rintro (rfl | rfl)
      · exact hlower rfl
      · exact hupper rfl
  have hletter : ∀ c r r', (c = 'e' ∨ c = 'E') → Alike r r' →
      exponent? (c :: r') = exponent? (c :: r) ∧
        Alike ((c :: r).drop (((exponent? (c :: r)).map Prod.snd).getD 0))
          ((c :: r').drop (((exponent? (c :: r)).map Prod.snd).getD 0)) := by
    intro c r r' hc halike
    obtain ⟨hsame, hdrop⟩ := signedDigits_alike halike
    rw [exponent?_cons, exponent?_cons, if_pos hc, if_pos hc, hsame]
    refine ⟨rfl, ?_⟩
    split
    · exact .char c halike
    · rw [Option.map_some, Option.getD_some, Nat.add_assoc, Nat.add_comm 1]
      exact hdrop
  rcases h.cons_cases (c := 'e') rfl with ⟨r, r', rfl, rfl, hr⟩ | ⟨hlower, hlower'⟩
  · exact hletter 'e' r r' (.inl rfl) hr
  rcases h.cons_cases (c := 'E') rfl with ⟨r, r', rfl, rfl, hr⟩ | ⟨hupper, hupper'⟩
  · exact hletter 'E' r r' (.inr rfl) hr
  · rw [hplain cs hlower hupper, hplain cs' hlower' hupper']
    exact ⟨rfl, h⟩

theorem wholeDigits_alike :
    wholeDigits cs' = wholeDigits cs ∧
      Past cs cs' (cs.drop (wholeDigits cs).length) (cs'.drop (wholeDigits cs).length) := by
  have hplain : ∀ r : List Char, r.head? ≠ some '0' →
      wholeDigits r = r.takeWhile isNumberDigit := by
    intro r hzero
    unfold wholeDigits
    split
    · exact absurd rfl hzero
    · rfl
  rcases h.cons_cases (c := '0') rfl with ⟨r, r', rfl, rfl, hr⟩ | ⟨hzero, hzero'⟩
  · exact ⟨rfl, hr, ['0'], rfl, rfl⟩
  · rw [hplain cs hzero, hplain cs' hzero', (takeWhile_isNumberDigit_alike h).1]
    exact ⟨rfl, .of_front h (List.takeWhile_prefix _) fun _ hc =>
      isSpace_of_isNumberDigit (List.mem_takeWhile_imp hc)⟩

theorem fractionDigits_alike :
    fractionDigits cs' = fractionDigits cs ∧
      Past cs cs' (afterFraction cs) (afterFraction cs') := by
  have hplain : ∀ r : List Char, r.head? ≠ some '.' → fractionDigits r = [] := by
    intro r hpoint
    unfold fractionDigits
    split
    · exact absurd rfl hpoint
    · rfl
  unfold afterFraction
  rcases h.cons_cases (c := '.') rfl with ⟨r, r', rfl, rfl, hr⟩ | ⟨hpoint, hpoint'⟩
  · have hdigits : fractionDigits ('.' :: r') = fractionDigits ('.' :: r) :=
      (takeWhile_isNumberDigit_alike hr).1
    rw [hdigits]
    refine ⟨rfl, ?_⟩
    split
    · exact .refl h
    · have hpoint : Past ('.' :: r) ('.' :: r') r r' := ⟨hr, ['.'], rfl, rfl⟩
      exact hpoint.trans (.of_front hr (List.takeWhile_prefix _) fun _ hc =>
        isSpace_of_isNumberDigit (List.mem_takeWhile_imp hc))
  · rw [hplain cs hpoint, hplain cs' hpoint']
    exact ⟨rfl, .refl h⟩

/-- **Texts that are alike start with the same number**, if any. -/
theorem numberText?_alike :
    numberText? cs' = numberText? cs ∧
      ∀ n, numberText? cs = some n → Alike (cs.drop n.length) (cs'.drop n.length) := by
  have hsign : (cs'.head? == some '-') = (cs.head? == some '-') := by
    rw [Bool.eq_iff_iff, beq_iff_eq, beq_iff_eq]
    exact h.head?_eq_some_iff rfl
  have hrest : Past cs cs' (if cs.head? == some '-' then cs.drop 1 else cs)
      (if cs.head? == some '-' then cs'.drop 1 else cs') := by
    rcases h.cons_cases (c := '-') rfl with ⟨r, r', rfl, rfl, hr⟩ | ⟨hminus, hminus'⟩
    · exact ⟨hr, ['-'], rfl, rfl⟩
    · rw [if_neg (by simpa using hminus), if_neg (by simpa using hminus)]
      exact .refl h
  rw [numberText?_eq, numberText?_eq]
  simp only [hsign]
  generalize (if cs.head? == some '-' then cs.drop 1 else cs) = rest at hrest ⊢
  generalize (if cs.head? == some '-' then cs'.drop 1 else cs') = rest' at hrest ⊢
  obtain ⟨hwhole, hafter⟩ := wholeDigits_alike hrest.alike
  obtain ⟨hfraction, hlast⟩ := fractionDigits_alike hafter.alike
  obtain ⟨hexponent, hdrop⟩ := exponent?_alike hlast.alike
  obtain ⟨hlength, hdrop⟩ := ((hrest.trans hafter).trans hlast).drop_alike hdrop
  rw [hwhole, hfraction, hexponent, hlength]
  refine ⟨rfl, ?_⟩
  intro n hn
  split at hn
  · exact nomatch hn
  · rw [← Option.some.inj hn]
    exact hdrop

end Numbers

/-- A constant or a number is read from texts that are alike as the same value. -/
theorem readAtom_alike {c c' d : Cursor} {value : Value} (h : readAtom c = .ok (value, d))
    (halike : Alike c.rest c'.rest) :
    ∃ d', readAtom c' = .ok (value, d') ∧ Alike d.rest d'.rest := by
  have hspelling : ∀ k ∈ constants, ∀ char ∈ k.1, isSpace char = false := by
    have hall : ∀ k ∈ constants, k.1.any isSpace = false := by decide
    exact fun k hk char hchar => Bool.eq_false_iff.2 (List.any_eq_false.1 (hall k hk) char hchar)
  have hconstants : (constants.find? fun k => k.1.isPrefixOf c'.rest) =
      constants.find? fun k => k.1.isPrefixOf c.rest :=
    List.find?_congr fun k hk => halike.isPrefixOf_eq (hspelling k hk)
  unfold readAtom at h ⊢
  rw [hconstants]
  split at h
  next spelling constant hfind =>
    obtain ⟨rfl, rfl⟩ := Prod.mk.inj (Except.ok.inj h)
    have hfound : (spelling.isPrefixOf c.rest) = true :=
      List.find?_some (p := fun k : List Char × Value => k.1.isPrefixOf c.rest) hfind
    have hmem := List.mem_of_find?_eq_some hfind
    exact ⟨_, rfl, (Past.of_front halike (List.isPrefixOf_iff_prefix.1 hfound)
      (hspelling _ hmem)).alike⟩
  next =>
    obtain ⟨hsame, hdrop⟩ := numberText?_alike halike
    rw [hsame]
    split at h
    next n hn =>
      obtain ⟨v, hv, hpair⟩ := map_eq_ok.1 h
      obtain ⟨rfl, rfl⟩ := Prod.mk.inj hpair
      exact ⟨_, map_eq_ok.2 ⟨v, hv, rfl⟩, hdrop n hn⟩
    next => exact nomatch h

/-! ### Strings -/

theorem of_hexDigit?_isSome {c : Char} (h : (hexDigit? c).isSome = true) :
    isSpace c = false ∧ c ≠ '"' := by
  refine ⟨isSpace_eq_false (p := fun c => (hexDigit? c).isSome) (by decide) h, ?_⟩
  rintro rfl
  exact nomatch h

theorem Alike.ne_nil_of_mem {cs cs' : List Char} (h : Alike cs cs') {mark : Char}
    (hmark : isSpace mark = false) (hmem : mark ∈ cs) : cs' ≠ [] := by
  rintro rfl
  cases h with
  | space h =>
    rw [h mark hmem] at hmark
    exact nomatch hmark

/-- Four digits with more of a string behind them are read from texts that are alike. -/
theorem hexUnit?_alike {cs cs' : List Char} {n : Nat} (h : hexUnit? cs = some n)
    (halike : Alike cs cs') (hmem : '"' ∈ cs) :
    hexUnit? cs' = some n ∧ Alike (cs.drop 4) (cs'.drop 4) ∧ '"' ∈ cs.drop 4 := by
  obtain ⟨digits, rest, rfl, hlength, hdigits, hread⟩ := exists_of_hexUnit? h
  obtain ⟨rest', rfl, hrest⟩ := halike.of_append fun c hc => (of_hexDigit?_isSome (hdigits c hc)).1
  have hquote : '"' ∈ rest := by
    rcases List.mem_append.1 hmem with hin | hin
    · exact absurd rfl (of_hexDigit?_isSome (hdigits _ hin)).2
    · exact hin
  rw [← hlength, List.drop_left, List.drop_left]
  exact ⟨hread rest' (hrest.ne_nil_of_mem rfl hquote), hrest, hquote⟩

/-- A second escape stays one. -/
theorem secondEscape?_alike {cs cs' tail : List Char} {high low : Nat} (halike : Alike cs cs')
    (hmem : '"' ∈ cs) (h : secondEscape? high cs = some tail) (hlow : hexUnit? tail = some low) :
    ∃ tail', secondEscape? high cs' = some tail' ∧ hexUnit? tail' = some low ∧
      Alike (cs.drop 6) (cs'.drop 6) := by
  obtain ⟨rfl, hhigh, -⟩ := secondEscape?_eq_some.1 h
  obtain ⟨rest', rfl, hrest⟩ := halike.of_cons rfl
  obtain ⟨tail', rfl, htail⟩ := hrest.of_cons rfl
  have hquote : '"' ∈ tail := by simpa using hmem
  obtain ⟨hlow', hafter, hclose⟩ := hexUnit?_alike hlow htail hquote
  have hlong : 4 < tail'.length := by
    have hne := hafter.ne_nil_of_mem rfl hclose
    rwa [ne_eq, List.drop_eq_nil_iff, not_le] at hne
  exact ⟨tail', secondEscape?_eq_some.2 ⟨rfl, hhigh, hlong⟩, hlow', hafter⟩

/-- No second escape comes up. -/
theorem secondEscape?_eq_none_of_alike {cs cs' : List Char} {high : Nat} (halike : Alike cs cs')
    (h : secondEscape? high cs = none) : secondEscape? high cs' = none := by
  rw [Option.eq_none_iff_forall_not_mem] at h ⊢
  intro tail' htail'
  obtain ⟨rfl, hhigh, hlong⟩ := secondEscape?_eq_some.1 htail'
  obtain ⟨rest, rfl, hrest⟩ := halike.of_cons_right rfl
  obtain ⟨tail, rfl, htail⟩ := hrest.of_cons_right rfl
  exact h tail (secondEscape?_eq_some.2 ⟨rfl, hhigh, lt_of_lt_of_le hlong htail.length_le⟩)

/-- A numbered escape with more of a string behind it is read from texts that are alike. -/
theorem readUnicodeEscape_alike {c c' : Cursor} {char : Char} {length : Nat}
    (h : readUnicodeEscape c = .ok (char, length)) (halike : Alike c.rest c'.rest)
    (hmem : '"' ∈ c.rest) :
    readUnicodeEscape c' = .ok (char, length) ∧
      Alike (c.rest.drop length) (c'.rest.drop length) := by
  cases hhigh : hexUnit? c.rest with
  | none =>
    rw [readUnicodeEscape, hhigh] at h
    cases h
  | some high =>
    obtain ⟨hhigh', hafter, hquote⟩ := hexUnit?_alike hhigh halike hmem
    cases hsecond : secondEscape? high (c.rest.drop 4) with
    | none =>
      rw [readUnicodeEscape_of_none hhigh hsecond] at h
      obtain rfl := of_readAlone h
      rw [readUnicodeEscape_of_none hhigh' (secondEscape?_eq_none_of_alike hafter hsecond)]
      exact ⟨h, hafter⟩
    | some tail =>
      rw [readUnicodeEscape_of_some hhigh hsecond] at h
      cases hlow : hexUnit? tail with
      | none =>
        rw [hlow] at h
        cases h
      | some low =>
        obtain ⟨tail', htail', hlow', hlast⟩ := secondEscape?_alike hafter hquote hsecond hlow
        rw [List.drop_drop, List.drop_drop] at hlast
        rw [readUnicodeEscape_of_some hhigh' htail', hlow']
        rw [hlow] at h
        refine ⟨h, ?_⟩
        dsimp only at h
        split at h
        next =>
          obtain ⟨rfl, rfl⟩ := Prod.mk.inj (Except.ok.inj h)
          exact hlast
        next =>
          obtain rfl := of_readAlone h
          exact hafter

theorem Alike.skip {c c' : Cursor} {rest rest' : List Char} (halike : Alike rest rest')
    (front : List Char) (h : c.rest = front ++ rest) (h' : c'.rest = front ++ rest') :
    Alike (c.skip front.length).rest (c'.skip front.length).rest := by
  show Alike (c.rest.drop front.length) (c'.rest.drop front.length)
  rw [h, h', List.drop_left, List.drop_left]
  exact halike

theorem isSpace_of_escape? {e char : Char} (h : escape? e = some char) : isSpace e = false :=
  isSpace_eq_false (p := fun e => (escape? e).isSome) (by decide) (by rw [h]; rfl)

/-- **A string is read from texts that are alike as the same one.** -/
theorem readString_alike {start fuel fuel' : Nat} {before cs : List Char} {c c' d : Cursor}
    (start' : Nat) (h : readString start fuel before c = .ok (cs, d))
    (halike : Alike c.rest c'.rest) (hfuel : c'.rest.length < fuel') :
    ∃ d', readString start' fuel' before c' = .ok (cs, d') ∧ Alike d.rest d'.rest := by
  induction fuel generalizing before c c' fuel' with
  | zero => exact nomatch h
  | succ fuel ih =>
    obtain ⟨fuel', rfl⟩ := Nat.exists_eq_add_of_le' (Nat.one_le_of_lt hfuel)
    have hquote := quote_mem_of_readString h
    have hless : ∀ n, 0 < n → c'.rest ≠ [] → (c'.skip n).rest.length < fuel' := by
      intro n hn hne
      have hpos := List.length_pos_iff.2 hne
      show (c'.rest.drop n).length < fuel'
      rw [List.length_drop]
      omega
    rcases readString_eq_ok.1 h with ⟨rest, heq, rfl, rfl⟩ | ⟨rest, char, length, heq, hread, h⟩ |
      ⟨e, rest, char, heq, hu, hchar, h⟩ | ⟨char, rest, heq, hplain, hslash, hcontrol, h⟩
    · rw [heq] at halike
      obtain ⟨rest', heq', hrest⟩ := halike.of_cons rfl
      exact ⟨_, readString_eq_ok.2 (.inl ⟨rest', heq', rfl, rfl⟩), hrest.skip ['"'] heq heq'⟩
    · rw [heq] at halike hquote
      obtain ⟨_, heq', hletter⟩ := halike.of_cons rfl
      obtain ⟨rest', rfl, hrest⟩ := hletter.of_cons rfl
      have hmem : '"' ∈ (c.skip 2).rest := by
        show '"' ∈ c.rest.drop 2
        rw [heq]
        simpa using hquote
      obtain ⟨hread', hafter⟩ :=
        readUnicodeEscape_alike hread (hrest.skip ['\\', 'u'] heq heq') hmem
      have hskip : Alike (c.skip (2 + length)).rest (c'.skip (2 + length)).rest := by
        simpa only [Cursor.skip, List.drop_drop, List.length_cons, List.length_nil] using hafter
      obtain ⟨d', h', hd⟩ := ih h hskip (hless _ (by omega) (by simp [heq']))
      exact ⟨d', readString_eq_ok.2 (.inr (.inl ⟨rest', char, length, heq', hread', h'⟩)), hd⟩
    · rw [heq] at halike
      obtain ⟨_, heq', hletter⟩ := halike.of_cons rfl
      obtain ⟨rest', rfl, hrest⟩ := hletter.of_cons (isSpace_of_escape? hchar)
      obtain ⟨d', h', hd⟩ := ih h (hrest.skip ['\\', e] heq heq')
        (hless 2 (by omega) (by simp [heq']))
      exact ⟨d', readString_eq_ok.2 (.inr (.inr (.inl ⟨e, rest', char, heq', hu, hchar, h'⟩))), hd⟩
    · rw [heq] at halike hquote
      have hreturn : char ≠ '\r' := by
        rintro rfl
        exact hcontrol (by decide)
      obtain ⟨rest', heq', hrest⟩ := halike.of_cons_of_mem hreturn rfl hquote
      obtain ⟨d', h', hd⟩ := ih h (hrest.skip [char] heq heq')
        (hless 1 (by omega) (by simp [heq']))
      exact ⟨d', readString_eq_ok.2 (.inr (.inr (.inr
        ⟨char, rest', heq', hplain, hslash, hcontrol, h'⟩))), hd⟩

/-! ### Values -/

theorem Alike.skipSpace {c c' : Cursor} (h : Alike c.rest c'.rest) :
    Alike c.skipSpace.rest c'.skipSpace.rest := by
  rw [rest_skipSpace, rest_skipSpace]
  exact h.dropWhile_isSpace

/-- A mark is there in both of two texts that are alike, and they are alike behind it. -/
theorem Alike.skip_mark {c c' : Cursor} (h : Alike c.rest c'.rest) {mark : Char}
    (hmark : isSpace mark = false) (hhead : c.rest.head? = some mark) :
    c'.rest.head? = some mark ∧ Alike (c.skip 1).rest (c'.skip 1).rest ∧
      (c'.skip 1).rest.length < c'.rest.length := by
  have hhead' := (h.head?_eq_some_iff hmark).2 hhead
  obtain ⟨rest, hrest⟩ := List.head?_eq_some_iff.1 hhead
  rw [hrest] at h
  obtain ⟨rest', hrest', halike⟩ := h.of_cons hmark
  exact ⟨hhead', halike.skip [mark] hrest hrest', (upTo_skip hhead').length_lt⟩

/-- Whatever is read with some fuel is read from texts that are alike, and there with any fuel that
is enough for what is left of them. -/
structure ReadsAlike (fuel : Nat) : Prop where
  value {c c' d : Cursor} {v : Value} {fuel' : Nat} (h : readValue fuel c = .ok (v, d))
    (halike : Alike c.rest c'.rest) (hfuel : 2 * c'.rest.length + 1 ≤ fuel') :
    ∃ d', readValue fuel' c' = .ok (v, d') ∧ Alike d.rest d'.rest
  members {entries : List (Value × Value)} {c c' d : Cursor} {v : Value} {fuel' : Nat}
    (h : readMembers fuel entries c = .ok (v, d)) (halike : Alike c.rest c'.rest)
    (hfuel : 2 * c'.rest.length + 2 ≤ fuel') :
    ∃ d', readMembers fuel' entries c' = .ok (v, d') ∧ Alike d.rest d'.rest
  items {before : List Value} {c c' d : Cursor} {v : Value} {fuel' : Nat}
    (h : readItems fuel before c = .ok (v, d)) (halike : Alike c.rest c'.rest)
    (hfuel : 2 * c'.rest.length + 2 ≤ fuel') :
    ∃ d', readItems fuel' before c' = .ok (v, d') ∧ Alike d.rest d'.rest

section Steps

variable {fuel fuel' : Nat} (ih : ReadsAlike fuel) {c c' d : Cursor} {v : Value}
  (halike : Alike c.rest c'.rest)
include ih halike

theorem readValue_alike_step (h : readValue (fuel + 1) c = .ok (v, d))
    (hfuel : 2 * c'.rest.length + 1 ≤ fuel') :
    ∃ d', readValue fuel' c' = .ok (v, d') ∧ Alike d.rest d'.rest := by
  obtain ⟨fuel', rfl⟩ := Nat.exists_eq_add_of_le' (Nat.one_le_of_lt hfuel)
  rcases readValue_eq_ok.1 h with ⟨hquote, cs, hstring, rfl⟩ | ⟨hbrace, h⟩ | ⟨hbracket, h⟩ |
    ⟨hquote, hbrace, hbracket, h⟩
  · obtain ⟨hquote', hskip, hless⟩ := halike.skip_mark rfl hquote
    obtain ⟨d', hstring', hd⟩ := readString_alike c'.position hstring hskip
      (show _ < fuel' by omega)
    exact ⟨d', readValue_eq_ok.2 (.inl ⟨hquote', cs, hstring', rfl⟩), hd⟩
  · obtain ⟨hbrace', hskip, hless⟩ := halike.skip_mark rfl hbrace
    have hspace := (skipSpace_suffix (c'.skip 1)).length_le
    split at h
    next hclose =>
      obtain ⟨rfl, rfl⟩ := h
      obtain ⟨hclose', hd, -⟩ := hskip.skipSpace.skip_mark rfl hclose
      refine ⟨_, readValue_eq_ok.2 (.inr (.inl ⟨hbrace', ?_⟩)), hd⟩
      rw [if_pos hclose']
      exact ⟨rfl, rfl⟩
    next hopen =>
      obtain ⟨d', h', hd⟩ := ih.members h hskip.skipSpace (show _ ≤ fuel' by omega)
      refine ⟨d', readValue_eq_ok.2 (.inr (.inl ⟨hbrace', ?_⟩)), hd⟩
      rwa [if_neg (mt (hskip.skipSpace.head?_eq_some_iff rfl).1 hopen)]
  · obtain ⟨hbracket', hskip, hless⟩ := halike.skip_mark rfl hbracket
    have hspace := (skipSpace_suffix (c'.skip 1)).length_le
    split at h
    next hclose =>
      obtain ⟨rfl, rfl⟩ := h
      obtain ⟨hclose', hd, -⟩ := hskip.skipSpace.skip_mark rfl hclose
      refine ⟨_, readValue_eq_ok.2 (.inr (.inr (.inl ⟨hbracket', ?_⟩))), hd⟩
      rw [if_pos hclose']
      exact ⟨rfl, rfl⟩
    next hopen =>
      obtain ⟨d', h', hd⟩ := ih.items h hskip.skipSpace (show _ ≤ fuel' by omega)
      refine ⟨d', readValue_eq_ok.2 (.inr (.inr (.inl ⟨hbracket', ?_⟩))), hd⟩
      rwa [if_neg (mt (hskip.skipSpace.head?_eq_some_iff rfl).1 hopen)]
  · obtain ⟨d', h', hd⟩ := readAtom_alike h halike
    refine ⟨d', readValue_eq_ok.2 (.inr (.inr (.inr ⟨?_, ?_, ?_, h'⟩))), hd⟩
    · rwa [ne_eq, halike.head?_eq_some_iff rfl]
    · rwa [ne_eq, halike.head?_eq_some_iff rfl]
    · rwa [ne_eq, halike.head?_eq_some_iff rfl]

theorem readMembers_alike_step {entries : List (Value × Value)}
    (h : readMembers (fuel + 1) entries c = .ok (v, d)) (hfuel : 2 * c'.rest.length + 2 ≤ fuel') :
    ∃ d', readMembers fuel' entries c' = .ok (v, d') ∧ Alike d.rest d'.rest := by
  obtain ⟨fuel', rfl⟩ := Nat.exists_eq_add_of_le' (Nat.one_le_of_lt hfuel)
  obtain ⟨hquote, key, k, hkey, hcolon, member, m, hmember, h⟩ := readMembers_eq_ok.1 h
  obtain ⟨hquote', hskip, hless⟩ := halike.skip_mark rfl hquote
  obtain ⟨k', hkey', hk⟩ := readString_alike c'.position hkey hskip
    (show _ < fuel' by omega)
  have hkless := (upTo_of_readString hkey').length_lt
  have hkspace := (skipSpace_suffix k').length_le
  obtain ⟨hcolon', hskip, hcolonless⟩ := hk.skipSpace.skip_mark rfl hcolon
  have hvaluespace := (skipSpace_suffix (k'.skipSpace.skip 1)).length_le
  obtain ⟨m', hmember', hm⟩ := ih.value hmember hskip.skipSpace (show _ ≤ fuel' by omega)
  have hmless := ((upTo_of_reads fuel').1 hmember').length_le
  have hmspace := (skipSpace_suffix m').length_le
  rcases h with ⟨hclose, rfl, rfl⟩ | ⟨hcomma, h⟩
  · obtain ⟨hclose', hskip, -⟩ := hm.skipSpace.skip_mark rfl hclose
    exact ⟨_, readMembers_eq_ok.2 ⟨hquote', key, k', hkey', hcolon', member, m', hmember',
      .inl ⟨hclose', rfl, rfl⟩⟩, hskip⟩
  · obtain ⟨hcomma', hskip, hcommaless⟩ := hm.skipSpace.skip_mark rfl hcomma
    have hnextspace := (skipSpace_suffix (m'.skipSpace.skip 1)).length_le
    obtain ⟨d', h', hd⟩ := ih.members h hskip.skipSpace (show _ ≤ fuel' by omega)
    exact ⟨d', readMembers_eq_ok.2 ⟨hquote', key, k', hkey', hcolon', member, m', hmember',
      .inr ⟨hcomma', h'⟩⟩, hd⟩

theorem readItems_alike_step {before : List Value}
    (h : readItems (fuel + 1) before c = .ok (v, d)) (hfuel : 2 * c'.rest.length + 2 ≤ fuel') :
    ∃ d', readItems fuel' before c' = .ok (v, d') ∧ Alike d.rest d'.rest := by
  obtain ⟨fuel', rfl⟩ := Nat.exists_eq_add_of_le' (Nat.one_le_of_lt hfuel)
  obtain ⟨item, m, hitem, h⟩ := readItems_eq_ok.1 h
  obtain ⟨m', hitem', hm⟩ := ih.value hitem halike (show _ ≤ fuel' by omega)
  have hmless := ((upTo_of_reads fuel').1 hitem').length_le
  have hmspace := (skipSpace_suffix m').length_le
  rcases h with ⟨hclose, rfl, rfl⟩ | ⟨hcomma, h⟩
  · obtain ⟨hclose', hskip, -⟩ := hm.skipSpace.skip_mark rfl hclose
    exact ⟨_, readItems_eq_ok.2 ⟨item, m', hitem', .inl ⟨hclose', rfl, rfl⟩⟩, hskip⟩
  · obtain ⟨hcomma', hskip, hcommaless⟩ := hm.skipSpace.skip_mark rfl hcomma
    have hnextspace := (skipSpace_suffix (m'.skipSpace.skip 1)).length_le
    obtain ⟨d', h', hd⟩ := ih.items h hskip.skipSpace (show _ ≤ fuel' by omega)
    exact ⟨d', readItems_eq_ok.2 ⟨item, m', hitem', .inr ⟨hcomma', h'⟩⟩, hd⟩

end Steps

/-- **Whatever is read from a text is read from one that is alike**, with any fuel that is enough
for that one. -/
theorem reads_alike (fuel : Nat) : ReadsAlike fuel := by
  induction fuel with
  | zero => exact ⟨nofun, nofun, nofun⟩
  | succ fuel ih =>
    exact ⟨fun h halike => readValue_alike_step ih halike h,
      fun h halike => readMembers_alike_step ih halike h,
      fun h halike => readItems_alike_step ih halike h⟩

/-! ### Whole texts -/

theorem readDocument_alike {cs cs' : List Char} {value : Value} (h : readDocument cs = .ok value)
    (halike : Alike cs cs') : readDocument cs' = .ok value := by
  obtain ⟨c, hread, hend⟩ := readDocument_eq_ok.1 h
  have hstart : Alike (Cursor.mk cs 0).skipSpace.rest (Cursor.mk cs' 0).skipSpace.rest :=
    Alike.skipSpace halike
  have hspace : (Cursor.mk cs' 0).skipSpace.rest.length ≤ cs'.length :=
    (skipSpace_suffix ⟨cs', 0⟩).length_le
  obtain ⟨c', hread', hbehind⟩ := (reads_alike _).value hread hstart
    (show _ ≤ 2 * cs'.length + 2 by omega)
  have hend' := hbehind.skipSpace
  rw [hend] at hend'
  exact readDocument_eq_ok.2 ⟨c', hread', hend'.eq_nil⟩

/-- **A text that is JSON is JSON for the same value if it is given as one that is alike.** -/
theorem parse_alike {s t : String} {value : Value} (h : parse s = .ok value)
    (halike : Alike s.toList t.toList) : parse t = .ok value := by
  obtain ⟨hmark, hread⟩ := parse_eq_ok.1 h
  exact parse_eq_ok.2 ⟨mt (halike.head?_eq_some_iff rfl).1 hmark, readDocument_alike hread halike⟩

/-- **A text that is JSON stays so with line feeds for all line ends.** -/
theorem parse_normalizeNewlines {s : String} {value : Value} (h : parse s = .ok value) :
    parse (Text.normalizeNewlines s) = .ok value := by
  apply parse_alike h
  rw [Text.normalizeNewlines, String.toList_ofList]
  exact alike_normalizeNewlineChars s.toList

/-- What stands between two characters that are kept is kept. -/
theorem stripWhere_of_ends {p : Char → Bool} {used space : List Char} {mark : Char}
    (hfirst : ∀ c, (used ++ [mark]).head? = some c → p c = false) (hmark : p mark = false)
    (hspace : ∀ c ∈ space, p c = true) :
    Text.stripWhere p (used ++ mark :: space) = used ++ [mark] := by
  have hfront : (used ++ mark :: space).dropWhile p = used ++ mark :: space := by
    cases used with
    | nil =>
      rw [List.nil_append, List.dropWhile_cons, hmark]
      rfl
    | cons c used =>
      rw [List.cons_append, List.dropWhile_cons, hfirst c rfl]
      rfl
  have hback : (space.reverse ++ mark :: used.reverse).dropWhile p = mark :: used.reverse := by
    rw [List.dropWhile_append_of_pos fun c hc => hspace c (List.mem_reverse.1 hc),
      List.dropWhile_cons, hmark]
    rfl
  rw [Text.stripWhere, hfront, List.reverse_append, List.reverse_cons, List.append_assoc,
    List.singleton_append, hback, List.reverse_cons, List.reverse_reverse]

theorem rest_skipSpace_of_start {cs : List Char}
    (hstart : cs.head? = some '\x7b' ∨ cs.head? = some '[') :
    (Cursor.mk cs 0).skipSpace.rest = cs := by
  rw [rest_skipSpace]
  rcases hstart with hx | hx
  all_goals
    obtain ⟨rest, rfl⟩ := List.head?_eq_some_iff.1 hx
    rfl

/-- Where the text of a value starts as an object or an array does, the value is one. -/
theorem exists_of_start {s : String} {value : Value} (h : parse s = .ok value)
    (hstart : s.toList.head? = some '\x7b' ∨ s.toList.head? = some '[') :
    (∃ entries, value = .mapping entries) ∨ ∃ items, value = .list items := by
  obtain ⟨-, hread⟩ := parse_eq_ok.1 h
  obtain ⟨c, hread, -⟩ := readDocument_eq_ok.1 hread
  apply exists_of_readValue hread
  rw [rest_skipSpace_of_start hstart]
  exact hstart

theorem head?_stripWhere_of_head? {p : Char → Bool} {cs : List Char} {c : Char}
    (h : cs.head? = some c) (hc : p c = false) : (Text.stripWhere p cs).head? = some c := by
  obtain ⟨rest, rfl⟩ := List.head?_eq_some_iff.1 h
  rw [Text.stripWhere, List.dropWhile_cons, hc]
  show ((c :: rest).reverse.dropWhile p).reverse.head? = some c
  rw [List.reverse_cons, List.dropWhile_append, List.head?_reverse]
  split
  · rw [List.dropWhile_cons, hc]
    rfl
  · rw [List.getLast?_concat]

/-- The text of an object or an array starts the same without the blanks at its ends. -/
theorem head?_strip {s : String}
    (hstart : s.toList.head? = some '\x7b' ∨ s.toList.head? = some '[') :
    (Text.strip s).toList.head? = some '\x7b' ∨ (Text.strip s).toList.head? = some '[' := by
  rw [Text.strip, String.toList_ofList]
  exact hstart.imp (head?_stripWhere_of_head? · rfl) (head?_stripWhere_of_head? · rfl)

/-- **The text of an object or an array stays what it is without the blanks at its ends.** -/
theorem parse_strip {s : String} {value : Value} (h : parse s = .ok value)
    (hstart : s.toList.head? = some '\x7b' ∨ s.toList.head? = some '[') :
    parse (Text.strip s) = .ok value := by
  obtain ⟨-, hread⟩ := parse_eq_ok.1 h
  obtain ⟨c, hread, hend⟩ := readDocument_eq_ok.1 hread
  have hfirst : ∀ x, s.toList.head? = some x → Text.isBlank x = false := by
    intro x hx
    rw [hx] at hstart
    rcases hstart with hx | hx <;> cases hx <;> rfl
  have hbegin := rest_skipSpace_of_start hstart
  have hspace : ∀ x ∈ c.rest, isSpace x = true := by
    rw [rest_skipSpace, List.dropWhile_eq_nil_iff] at hend
    exact hend
  obtain ⟨used, mark, hmark, hused⟩ : ∃ used mark, Text.isBlank mark = false ∧
      s.toList = used ++ mark :: c.rest := by
    rw [← hbegin] at hstart
    rcases upTo_of_readValue hread hstart with ⟨used, hused⟩ | ⟨used, hused⟩
    · exact ⟨used, _, rfl, hbegin ▸ hused⟩
    · exact ⟨used, _, rfl, hbegin ▸ hused⟩
  have hends : Text.stripWhere Text.isBlank s.toList = used ++ [mark] := by
    rw [hused]
    refine stripWhere_of_ends (fun x hx => hfirst x ?_) hmark fun x hx =>
      Text.isBlank_of_isSpace (hspace x hx)
    rw [hused, List.append_cons, List.head?_append, hx]
    rfl
  apply parse_alike h
  rw [Text.strip, String.toList_ofList, hends, hused, List.append_cons]
  exact alike_append_space hspace _

end SchemaCompiler.Json
