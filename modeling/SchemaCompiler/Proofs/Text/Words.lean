import SchemaCompiler.Proofs.Text.Splitting
import SchemaCompiler.Text.Blank

/-!
# Words and what they are joined to

The words of a text are told from the text alone, and words without a mark that are joined with it
are told from what they are joined to.

* `WordsOf` — a text made of words with blanks around them;
* `words_eq_iff` — **the words of a text are those that it is made of**;
* `splitAt_injective` — a text is known by its pieces;
* `joinWith_inj` — joined words are known by the text.
-/

namespace SchemaCompiler.Text

/-! ### The words of a text -/

/-- The text is made of the words, in this order, with blanks between them and maybe at its
ends. -/
inductive WordsOf : List Char → List (List Char) → Prop
  | nil {gap : List Char} (hgap : ∀ c ∈ gap, isBlank c = true) : WordsOf gap []
  | cons {gap word rest : List Char} {words : List (List Char)}
      (hgap : ∀ c ∈ gap, isBlank c = true)
      (hne : word ≠ []) (hword : ∀ c ∈ word, isBlank c = false)
      (hend : ∀ c, rest.head? = some c → isBlank c = true)
      (hrest : WordsOf rest words) : WordsOf (gap ++ (word ++ rest)) (word :: words)

/-- A blank more at the front makes no difference. -/
theorem WordsOf.blank {c : Char} {cs : List Char} {ws : List (List Char)} (hc : isBlank c = true)
    (h : WordsOf cs ws) : WordsOf (c :: cs) ws := by
  cases h with
  | nil hgap => exact .nil (List.forall_mem_cons.2 ⟨hc, hgap⟩)
  | cons hgap hne hword hend hrest =>
    rw [← List.cons_append]
    exact .cons (List.forall_mem_cons.2 ⟨hc, hgap⟩) hne hword hend hrest

/-- A word and what follows it. -/
theorem WordsOf.word {word rest : List Char} {ws : List (List Char)} (hne : word ≠ [])
    (hword : ∀ c ∈ word, isBlank c = false) (hend : ∀ c, rest.head? = some c → isBlank c = true)
    (hrest : WordsOf rest ws) : WordsOf (word ++ rest) (word :: ws) :=
  @WordsOf.cons [] word rest ws nofun hne hword hend hrest

theorem wordsOf_wordsFrom (word cs : List Char) (hword : ∀ c ∈ word, isBlank c = false) :
    WordsOf (word.reverse ++ cs) (wordsFrom word cs) := by
  have hreverse {word : List Char} (h : ∀ c ∈ word, isBlank c = false) :
      ∀ c ∈ word.reverse, isBlank c = false := fun c hc => h c (List.mem_reverse.1 hc)
  fun_induction wordsFrom word cs with
  | case1 word hempty =>
    rw [List.isEmpty_iff.1 hempty]
    exact .nil nofun
  | case2 word hempty =>
    exact .word (by simpa using hempty) (hreverse hword) nofun (.nil nofun)
  | case3 word c cs hc hempty ih =>
    rw [List.isEmpty_iff.1 hempty]
    exact (ih nofun).blank hc
  | case4 word c cs hc hempty ih =>
    refine .word (by simpa using hempty) (hreverse hword) ?_ ((ih nofun).blank hc)
    rintro d hd
    rwa [← Option.some.inj hd]
  | case5 word c cs hc ih =>
    have hmore := ih (List.forall_mem_cons.2 ⟨Bool.eq_false_iff.2 hc, hword⟩)
    rwa [List.reverse_cons, List.append_assoc] at hmore

theorem wordsFrom_gap {gap : List Char} (h : ∀ c ∈ gap, isBlank c = true) (rest : List Char) :
    wordsFrom [] (gap ++ rest) = wordsFrom [] rest := by
  induction gap with
  | nil => rfl
  | cons c gap ih =>
    rw [List.forall_mem_cons] at h
    rw [List.cons_append, wordsFrom, if_pos h.1]
    exact ih h.2

theorem wordsFrom_append {word : List Char} (h : ∀ c ∈ word, isBlank c = false)
    (front rest : List Char) :
    wordsFrom front (word ++ rest) = wordsFrom (word.reverse ++ front) rest := by
  induction word generalizing front with
  | nil => rfl
  | cons c word ih =>
    rw [List.forall_mem_cons] at h
    rw [List.cons_append, wordsFrom, if_neg (Bool.eq_false_iff.1 h.1), ih h.2, List.reverse_cons,
      List.append_assoc, List.singleton_append]

/-- A word ends where the text does or where a blank follows. -/
theorem wordsFrom_end {word rest : List Char} (hne : word ≠ [])
    (hend : ∀ c, rest.head? = some c → isBlank c = true) :
    wordsFrom word rest = word.reverse :: wordsFrom [] rest := by
  have hempty : ¬word.isEmpty = true := mt List.isEmpty_iff.1 hne
  cases rest with
  | nil => rw [wordsFrom, if_neg hempty]; rfl
  | cons c rest =>
    rw [wordsFrom, if_pos (hend c rfl), if_neg hempty, wordsFrom, if_pos (hend c rfl)]
    rfl

/-- **The words of a text** are those that it is made of. -/
theorem words_eq_iff {cs : List Char} {ws : List (List Char)} : words cs = ws ↔ WordsOf cs ws := by
  constructor
  · rintro rfl
    exact wordsOf_wordsFrom [] cs nofun
  · intro h
    rw [words]
    induction h with
    | nil hgap =>
      have hnone := wordsFrom_gap hgap []
      rwa [List.append_nil] at hnone
    | @cons gap word rest words hgap hne hword hend hrest ih =>
      rw [wordsFrom_gap hgap, wordsFrom_append hword, List.append_nil,
        wordsFrom_end (mt List.reverse_eq_nil_iff.1 hne) hend, List.reverse_reverse, ih]

/-! ### Texts put together with a mark -/

/-- A text is known by its pieces. -/
theorem splitAt_injective (mark : Char) : Function.Injective (splitAt mark) := by
  intro cs cs' h
  have hjoined := congrArg (List.flatMap (mark :: ·)) h
  rw [flatMap_splitAt, flatMap_splitAt] at hjoined
  exact (List.cons.inj hjoined).2

/-- Words that are joined with a mark that none of them has are the pieces of the text. -/
theorem splitAt_joinWith_mark {mark : Char} {separator : String}
    (hseparator : separator.toList = [mark]) {items : List String} (hne : items ≠ [])
    (h : ∀ s ∈ items, mark ∉ s.toList) :
    splitAt mark (joinWith separator items).toList = items.map String.toList := by
  induction items with
  | nil => exact absurd rfl hne
  | cons s rest ih =>
    rw [List.forall_mem_cons] at h
    cases rest with
    | nil => exact splitAt_of_notMem h.1
    | cons t rest =>
      have hrest := ih (List.cons_ne_nil t rest) h.2
      rw [joinWith, String.toList_append, String.toList_append, hseparator, List.append_assoc,
        List.singleton_append, splitAt_cons h.1, hrest]
      rfl

/-- **Joined words are known by the text**, if none is empty or has the mark. -/
theorem joinWith_inj {mark : Char} {separator : String} (hseparator : separator.toList = [mark])
    {items items' : List String} (h : ∀ s ∈ items, s ≠ "" ∧ mark ∉ s.toList)
    (h' : ∀ s ∈ items', s ≠ "" ∧ mark ∉ s.toList) :
    joinWith separator items = joinWith separator items' ↔ items = items' := by
  refine ⟨fun heq => ?_, fun heq => by rw [heq]⟩
  have hpieces := congrArg (fun s : String => splitAt mark s.toList) heq
  have hsplit {items : List String} (h : ∀ s ∈ items, s ≠ "" ∧ mark ∉ s.toList) (hne : items ≠ []) :
      splitAt mark (joinWith separator items).toList = items.map String.toList :=
    splitAt_joinWith_mark hseparator hne fun s hs => (h s hs).2
  -- Nothing is joined to the empty text, as one empty word would be.
  have hnone {items : List String} (h : ∀ s ∈ items, s ≠ "" ∧ mark ∉ s.toList)
      (hempty : splitAt mark (joinWith separator items).toList = [[]]) : items = [] := by
    cases items with
    | nil => rfl
    | cons s rest =>
      rw [hsplit h (List.cons_ne_nil s rest), List.map_cons, List.cons.injEq] at hempty
      exact absurd (String.toList_inj.1 hempty.1) (h s List.mem_cons_self).1
  cases items with
  | nil => exact (hnone h' hpieces.symm).symm
  | cons s rest =>
    cases items' with
    | nil => exact hnone h hpieces
    | cons t rest' =>
      rw [hsplit h (List.cons_ne_nil s rest), hsplit h' (List.cons_ne_nil t rest')] at hpieces
      exact (List.map_inj_right fun _ _ h => String.toList_inj.1 h).1 hpieces

end SchemaCompiler.Text
