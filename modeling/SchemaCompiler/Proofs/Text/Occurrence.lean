import Mathlib
import SchemaCompiler.Text.Line

/-!
# Occurrences

How often a word stands in a text.  Where two texts meet, an occurrence may arise that is in
neither of them, but none is lost; and none arises at a character that the word does not have.

* `occurrences`, `count` — the number of places at which a word starts;
* `Lacks`, `count_eq_zero_iff` — a word that starts nowhere in a text is no part of it;
* `count_append_le` — **no occurrence is lost where texts meet**;
* `count_append_of_startsApart`, `count_append_of_endsApart` — **none arises** at a character that
  is not in the word.
-/

namespace SchemaCompiler.Text

/-- The number of places at which a word starts in a list of characters. -/
def occurrences (word : List Char) : List Char → Nat
  | [] => 0
  | c :: cs => (word.isPrefixOf (c :: cs)).toNat + occurrences word cs

/-- The number of places at which a word starts in a text. -/
def count (word s : String) : Nat := occurrences word.toList s.toList

/-- A text of which a word is no part. -/
def Lacks (word s : String) : Prop := ¬word.toList <:+: s.toList

instance (word s : String) : Decidable (Lacks word s) := inferInstanceAs (Decidable (¬_))

/-! ### Lists of characters -/

section Characters

variable {word more cs before after : List Char} {c : Char}

theorem occurrences_eq_zero_iff (hword : word ≠ []) :
    occurrences word cs = 0 ↔ ¬word <:+: cs := by
  induction cs with
  | nil =>
    rw [List.infix_nil]
    exact iff_of_true rfl hword
  | cons c cs ih =>
    rw [occurrences, Nat.add_eq_zero_iff, ih, List.infix_cons_iff, not_or, Bool.toNat_eq_zero,
      ← Bool.not_eq_true, List.isPrefixOf_iff_prefix]

/-- A longer word does not occur more often. -/
theorem occurrences_append_word_le (word more cs : List Char) :
    occurrences (word ++ more) cs ≤ occurrences word cs := by
  induction cs with
  | nil => exact Nat.le_refl 0
  | cons c cs ih =>
    refine Nat.add_le_add (Bool.toNat_le_toNat ?_) ih
    intro h
    rw [List.isPrefixOf_iff_prefix] at h ⊢
    exact (List.prefix_append word more).trans h

theorem occurrences_append_le (word before after : List Char) :
    occurrences word before + occurrences word after ≤ occurrences word (before ++ after) := by
  induction before with
  | nil => exact (Nat.zero_add _).le
  | cons c before ih =>
    rw [occurrences, List.cons_append, occurrences, Nat.add_assoc]
    refine Nat.add_le_add (Bool.toNat_le_toNat ?_) ih
    intro h
    rw [List.isPrefixOf_iff_prefix] at h ⊢
    exact h.trans (List.prefix_append _ after)

/-- What starts before a character that the word does not have ends before it. -/
theorem isPrefixOf_append_cons (hc : c ∉ word) (before after : List Char) :
    word.isPrefixOf (before ++ c :: after) = word.isPrefixOf before := by
  induction word generalizing before with
  | nil => rfl
  | cons d word ih =>
    rw [List.mem_cons, not_or] at hc
    cases before with
    | nil =>
      rw [List.nil_append, List.isPrefixOf_cons_cons, beq_false_of_ne (Ne.symm hc.1)]
      rfl
    | cons e before =>
      rw [List.cons_append, List.isPrefixOf_cons_cons, List.isPrefixOf_cons_cons, ih hc.2]

theorem occurrences_append_cons (hc : c ∉ word) (before after : List Char) :
    occurrences word (before ++ c :: after) =
      occurrences word before + occurrences word (c :: after) := by
  induction before with
  | nil => exact (Nat.zero_add _).symm
  | cons d before ih =>
    have hprefix := isPrefixOf_append_cons hc (d :: before) after
    rw [List.cons_append] at hprefix
    rw [List.cons_append, occurrences, occurrences, hprefix, ih, Nat.add_assoc]

/-- No word starts at a character that it does not have. -/
theorem occurrences_cons (hword : word ≠ []) (hc : c ∉ word) (cs : List Char) :
    occurrences word (c :: cs) = occurrences word cs := by
  cases word with
  | nil => exact absurd rfl hword
  | cons d word =>
    rw [List.mem_cons, not_or] at hc
    rw [occurrences, List.isPrefixOf_cons_cons, beq_false_of_ne (Ne.symm hc.1)]
    exact Nat.zero_add _

end Characters

/-! ### Texts -/

section Texts

variable {word s before after : String}

/-- A text that starts with a character which a word does not have. -/
def StartsApart (word s : String) : Prop := ∃ c cs, s.toList = c :: cs ∧ c ∉ word.toList

/-- A text that ends with a character which a word does not have. -/
def EndsApart (word s : String) : Prop := ∃ cs c, s.toList = cs ++ [c] ∧ c ∉ word.toList

theorem StartsApart.of_chars {cs : List Char}
    (h : (cs.head?.any fun c => !word.toList.contains c) = true) :
    StartsApart word (String.ofList cs) := by
  cases cs with
  | nil => cases h
  | cons c cs => exact ⟨c, cs, String.toList_ofList, by simpa using h⟩

theorem EndsApart.of_chars {cs : List Char}
    (h : (cs.getLast?.any fun c => !word.toList.contains c) = true) :
    EndsApart word (String.ofList cs) := by
  rcases List.eq_nil_or_concat' cs with rfl | ⟨cs, c, rfl⟩
  · cases h
  · exact ⟨cs, c, String.toList_ofList, by simpa using h⟩

theorem EndsApart.append (h : EndsApart word after) (before : String) :
    EndsApart word (before ++ after) := by
  obtain ⟨cs, c, hafter, hc⟩ := h
  exact ⟨before.toList ++ cs, c, by rw [String.toList_append, hafter, List.append_assoc], hc⟩

theorem count_ofList (word : String) (cs : List Char) :
    count word (String.ofList cs) = occurrences word.toList cs := by
  rw [count, String.toList_ofList]

/-- **A word that starts nowhere in a text is no part of it.** -/
theorem count_eq_zero_iff (hword : word.toList ≠ []) : count word s = 0 ↔ Lacks word s :=
  occurrences_eq_zero_iff hword

/-- A longer word does not occur more often. -/
theorem count_append_word_le (word more s : String) : count (word ++ more) s ≤ count word s := by
  rw [count, String.toList_append]
  exact occurrences_append_word_le _ _ _

/-- **No occurrence is lost where texts meet.** -/
theorem count_append_le (word before after : String) :
    count word before + count word after ≤ count word (before ++ after) := by
  rw [count, count, count, String.toList_append]
  exact occurrences_append_le _ _ _

/-- **No occurrence arises where texts meet** if the second starts with a character which the word
does not have … -/
theorem count_append_of_startsApart (h : StartsApart word after) (before : String) :
    count word (before ++ after) = count word before + count word after := by
  obtain ⟨c, cs, hafter, hc⟩ := h
  rw [count, count, count, String.toList_append, hafter, occurrences_append_cons hc]

/-- … or the first ends with one. -/
theorem count_append_of_endsApart (hword : word.toList ≠ []) (h : EndsApart word before)
    (after : String) : count word (before ++ after) = count word before + count word after := by
  obtain ⟨cs, c, hbefore, hc⟩ := h
  rw [count, count, count, String.toList_append, hbefore, List.append_assoc, List.singleton_append,
    occurrences_append_cons hc, occurrences_append_cons hc, occurrences_cons hword hc,
    occurrences_cons hword hc]
  rfl

end Texts

end SchemaCompiler.Text
