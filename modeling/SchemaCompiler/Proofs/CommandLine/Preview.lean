import Mathlib.Data.List.Nodup
import Mathlib.Data.List.TakeWhile
import SchemaCompiler.CommandLine.Run
import SchemaCompiler.Proofs.Outcome

/-!
# What a preview shows

The statements of a preview are numbered before some of them are left out, and the line for a gap is
written on the way, behind a statement of a certain number.  A reader sees nothing of that: the
right number stands before each statement, and one line stands for all that are left out.

* `IsHeadline`, `isHeadline_headline` — what is shown of a statement;
* `PreviewLine.text_injective` — a line is known by its text;
* `flatMap_linesFor_of_gap` — **one line for a gap stands where its number comes up**, and nowhere
  else;
* `Shows` — what a reader relies on: rising numbers, under each the statement of that number, and a
  gap only where statements are left out;
* `previewText_shows` — **the lines between the rulers of a preview are such lines**, for any number
  of statements.
-/

namespace SchemaCompiler

/-! ### The log of notes -/

/-- Notes that are made one after the other stand in the log in this order. -/
theorem Traced.log_each_note (level : LogLevel) (messages : List String) :
    (Traced.each (Traced.note level) messages).log = messages.map (LogEntry.mk level) := by
  induction messages with
  | nil => rfl
  | cons message rest ih =>
    have hrest : (Traced.each (Traced.note level) rest).outcome = .ok (rest.map fun _ => ()) := by
      rw [Traced.outcome_each]
      exact mapM_eq_ok_map fun _ _ => rfl
    have hlog : (Traced.each (Traced.note level) (message :: rest)).log =
        [⟨level, message⟩] ++ (Traced.bind (Traced.each (Traced.note level) rest)
          fun notes => Traced.pure (() :: notes)).log := rfl
    rw [hlog, Traced.bind, hrest]
    simp [Traced.pure, ih]

namespace CommandLine

/-! ### Headlines -/

/-- What is shown of a statement: its first line, which goes to the first line break or to the end
of the statement, and of which a hundred characters and three dots are left if it is longer. -/
def IsHeadline (statement shown : String) : Prop :=
  ∃ line rest : List Char, statement.toList = line ++ rest ∧
    (∀ c ∈ line, Text.isLineBreak c = false) ∧ (∀ c ∈ rest.head?, Text.isLineBreak c = true) ∧
    shown.toList = if 100 < line.length then line.take 100 ++ ['.', '.', '.'] else line

theorem isHeadline_headline (statement : String) : IsHeadline statement (headline statement) := by
  let unbroken : Char → Bool := fun c => !Text.isLineBreak c
  refine ⟨statement.toList.takeWhile unbroken, statement.toList.dropWhile unbroken,
    List.takeWhile_append_dropWhile.symm, ?_, ?_, ?_⟩
  · intro c hc
    simpa [unbroken] using List.mem_takeWhile_imp hc
  · intro c hc
    have hstop := List.head?_dropWhile_not unbroken statement.toList
    rw [Option.mem_def.1 hc] at hstop
    simpa [unbroken] using hstop
  · have hline : (Text.firstLine statement).toList = statement.toList.takeWhile unbroken :=
      String.toList_ofList
    rw [headline, hline]
    by_cases hlong : headlineWidth < (statement.toList.takeWhile unbroken).length
    · rw [if_pos hlong, if_pos (show 100 < _ from hlong), String.toList_append,
        String.toList_ofList]
      rfl
    · rw [if_neg hlong, if_neg (show ¬100 < _ from hlong), String.toList_ofList]

/-! ### The texts of lines -/

namespace PreviewLine

/-- The text for a statement begins with the digits of its number. -/
theorem takeWhile_statement (number : Nat) (shown : String) :
    (statement number shown).text.toList.takeWhile Char.isDigit = Nat.toDigits 10 number := by
  have hdigits : ∀ c ∈ Nat.toDigits 10 number, c.isDigit = true := fun _ hc =>
    Nat.isDigit_of_mem_toDigits (by decide) (by decide) hc
  have htext : (statement number shown).text.toList =
      Nat.toDigits 10 number ++ '.' :: ' ' :: shown.toList := by
    simp [text]
  rw [htext, List.takeWhile_append_of_pos hdigits, List.takeWhile_cons_of_neg (by decide),
    List.append_nil]

/-- The text for a gap begins with a dot. -/
theorem head?_gap (count : Nat) : (gap count).text.toList.head? = some '.' := by
  simp [text]

theorem takeWhile_gap (count : Nat) : (gap count).text.toList.takeWhile Char.isDigit = [] := by
  simp [text]

/-- A number is known by its digits. -/
theorem toDigits_injective {m n : Nat} (h : Nat.toDigits 10 m = Nat.toDigits 10 n) : m = n := by
  have hread := congrArg (Nat.ofDigitChars 10 · 0) h
  simpa [Nat.ofDigitChars_toDigits] using hread

/-- **A line is known by its text.** -/
theorem text_injective {a b : PreviewLine} (h : a.text = b.text) : a = b := by
  have hdigits := congrArg (fun s : String => s.toList.takeWhile Char.isDigit) h
  cases a with
  | statement number shown =>
    cases b with
    | statement number' shown' =>
      simp only [takeWhile_statement] at hdigits
      have hnumber := toDigits_injective hdigits
      subst hnumber
      rw [(String.append_right_inj _).1 h]
    | gap count =>
      simp only [takeWhile_statement, takeWhile_gap] at hdigits
      exact absurd hdigits Nat.toDigits_ne_nil
  | gap count =>
    cases b with
    | statement number shown =>
      simp only [takeWhile_statement, takeWhile_gap] at hdigits
      exact absurd hdigits.symm Nat.toDigits_ne_nil
    | gap count' =>
      have hcount := (String.append_right_inj _).1 ((String.append_left_inj _).1 h)
      have hdigits' := congrArg String.toList hcount
      simp only [Nat.toString_eq_repr, Nat.toList_repr] at hdigits'
      rw [toDigits_injective hdigits']

/-- No line looks like a ruler. -/
theorem text_ne_ruler (line : PreviewLine) : line.text ≠ ruler := by
  intro h
  have hruler : ruler.toList = List.replicate 50 '=' := String.toList_ofList
  cases line with
  | statement number shown =>
    have hdigits := takeWhile_statement number shown
    rw [h, hruler] at hdigits
    exact Nat.toDigits_ne_nil hdigits.symm
  | gap count =>
    have hhead := head?_gap count
    rw [h, hruler] at hhead
    exact nomatch hhead

/-- The number of the statement that a line is for. -/
def number? : PreviewLine → Option Nat
  | .statement number _ => some number
  | .gap _ => none

/-- How many statements a line says to be left out. -/
def gap? : PreviewLine → Option Nat
  | .statement _ _ => none
  | .gap count => some count

end PreviewLine

/-- The numbers that lines show, from top to bottom. -/
def numbers (lines : List PreviewLine) : List Nat := lines.filterMap PreviewLine.number?

/-- What the lines for gaps say, from top to bottom. -/
def gaps (lines : List PreviewLine) : List Nat := lines.filterMap PreviewLine.gap?

/-- Lines with different numbers and one gap at most are all different. -/
theorem nodup_of_numbers {lines : List PreviewLine} (hnumbers : (numbers lines).Nodup)
    (hgaps : (gaps lines).length ≤ 1) : lines.Nodup := by
  induction lines with
  | nil => exact List.nodup_nil
  | cons line rest ih =>
    cases line with
    | statement number shown =>
      obtain ⟨hnew, hrest⟩ := List.nodup_cons.1 hnumbers
      refine List.nodup_cons.2 ⟨fun hmem => hnew ?_, ih hrest hgaps⟩
      exact List.mem_filterMap.2 ⟨_, hmem, rfl⟩
    | gap count =>
      have hnone : gaps rest = [] := by
        have hlength : (gaps rest).length + 1 ≤ 1 := hgaps
        exact List.eq_nil_of_length_eq_zero (by omega)
      refine List.nodup_cons.2 ⟨fun hmem => ?_, ih hnumbers (by rw [hnone]; exact Nat.zero_le 1)⟩
      have hgap : count ∈ gaps rest := List.mem_filterMap.2 ⟨_, hmem, rfl⟩
      rw [hnone] at hgap
      exact List.not_mem_nil hgap

/-! ### The lines for numbered statements -/

/-- The line for a statement with its number. -/
def lineFor (s : String × Nat) : PreviewLine := .statement s.2 (headline s.1)

theorem numbers_append (lines lines' : List PreviewLine) :
    numbers (lines ++ lines') = numbers lines ++ numbers lines' := List.filterMap_append

theorem numbers_map_lineFor (numbered : List (String × Nat)) :
    numbers (numbered.map lineFor) = numbered.map Prod.snd := by
  rw [numbers, List.filterMap_map, ← List.filterMap_eq_map]
  rfl

theorem gaps_map_lineFor (numbered : List (String × Nat)) : gaps (numbered.map lineFor) = [] := by
  rw [gaps, List.filterMap_map]
  exact List.filterMap_eq_nil_iff.2 fun _ _ => rfl

section Lines

variable {count : Nat}

/-- A statement has a line for itself only, unless statements are left out and its number is that
of the last one before them. -/
theorem linesFor_of_ne {s : String × Nat} (h : 2 * shownAtEnds < count → s.2 ≠ shownAtEnds) :
    linesFor count s = [lineFor s] := by
  rw [linesFor, if_neg fun hgap => h hgap.1 hgap.2]
  rfl

theorem flatMap_linesFor_of_ne {numbered : List (String × Nat)}
    (h : ∀ s ∈ numbered, 2 * shownAtEnds < count → s.2 ≠ shownAtEnds) :
    numbered.flatMap (linesFor count) = numbered.map lineFor := by
  induction numbered with
  | nil => rfl
  | cons s rest ih =>
    rw [List.forall_mem_cons] at h
    rw [List.flatMap_cons, linesFor_of_ne h.1, ih h.2]
    rfl

/-- **One line for a gap stands where its number comes up**, and nowhere else. -/
theorem flatMap_linesFor_of_gap (hcount : 2 * shownAtEnds < count)
    {before after : List (String × Nat)} {last : String × Nat} (hlast : last.2 = shownAtEnds)
    (hbefore : ∀ s ∈ before, s.2 ≠ shownAtEnds) (hafter : ∀ s ∈ after, s.2 ≠ shownAtEnds) :
    (before ++ last :: after).flatMap (linesFor count) =
      (before ++ [last]).map lineFor ++
        .gap (count - 2 * shownAtEnds) :: after.map lineFor := by
  have hgap : linesFor count last = [lineFor last, .gap (count - 2 * shownAtEnds)] := by
    rw [linesFor, if_pos ⟨hcount, hlast⟩]
    rfl
  rw [List.flatMap_append, List.flatMap_cons, hgap,
    flatMap_linesFor_of_ne fun s hs _ => hbefore s hs,
    flatMap_linesFor_of_ne fun s hs _ => hafter s hs]
  simp

end Lines

/-- A line with a number is that of a statement that is shown under it. -/
theorem mem_flatMap_linesFor {count number : Nat} {shown : String}
    {numbered : List (String × Nat)}
    (h : .statement number shown ∈ numbered.flatMap (linesFor count)) :
    ∃ s, (s, number) ∈ numbered ∧ shown = headline s := by
  obtain ⟨⟨s, i⟩, hs, hline⟩ := List.mem_flatMap.1 h
  rcases List.mem_cons.1 hline with hline | hline
  · cases hline
    exact ⟨s, hs, rfl⟩
  · split at hline
    · exact nomatch List.mem_singleton.1 hline
    · exact nomatch hline

/-! ### The statements that are shown -/

/-- A statement is shown under its own number. -/
theorem getElem?_of_mem_shown {statements : List String} {s : String} {number : Nat}
    (h : (s, number) ∈ shown statements) : 1 ≤ number ∧ statements[number - 1]? = some s := by
  unfold shown at h
  dsimp only at h
  split at h
  next => exact List.mk_mem_zipIdx_iff_le_and_getElem?_sub.1 h
  next hlong =>
    rcases List.mem_append.1 h with h | h
    · obtain ⟨hle, hget⟩ := List.mk_mem_zipIdx_iff_le_and_getElem?_sub.1 h
      rw [List.getElem?_take] at hget
      split at hget
      next => exact ⟨hle, hget⟩
      next => exact nomatch hget
    · obtain ⟨hle, hget⟩ := List.mk_mem_zipIdx_iff_le_and_getElem?_sub.1 h
      have hplace : statements.length - shownAtEnds +
          (number - (statements.length - shownAtEnds + 1)) = number - 1 := by omega
      rw [List.getElem?_drop, hplace] at hget
      exact ⟨by omega, hget⟩

theorem preview_of_few {statements : List String} (h : statements.length ≤ 10) :
    preview statements = (statements.zipIdx 1).map lineFor := by
  have hshown : shown statements = statements.zipIdx 1 := if_pos h
  rw [preview, hshown]
  exact flatMap_linesFor_of_ne fun _ _ hcount => absurd hcount (Nat.not_lt.2 h)

/-- Of many statements five are shown at the front, the number of the last one being that of a gap,
and five at the end, whose numbers are larger. -/
theorem preview_of_many {statements : List String} (h : 10 < statements.length) :
    preview statements = ((statements.take 5).zipIdx 1).map lineFor ++
      .gap (statements.length - 10) ::
        ((statements.drop (statements.length - 5)).zipIdx (statements.length - 4)).map lineFor := by
  have hfive : 4 < statements.length := by omega
  have hfront : (statements.take 5).zipIdx 1 =
      (statements.take 4).zipIdx 1 ++ [(statements[4], 5)] := by
    rw [List.take_succ_eq_append_getElem hfive, List.zipIdx_append, List.length_take,
      Nat.min_eq_left hfive.le]
    rfl
  have hshown : shown statements = (statements.take 4).zipIdx 1 ++ (statements[4], 5) ::
      (statements.drop (statements.length - 5)).zipIdx (statements.length - 4) := by
    have hstart : statements.length - shownAtEnds + 1 = statements.length - 4 := by
      rw [shownAtEnds]
      omega
    have hmany : ¬statements.length ≤ 2 * shownAtEnds := Nat.not_le.2 h
    rw [shown, if_neg hmany, hstart, shownAtEnds, hfront, List.append_assoc]
    rfl
  rw [preview, hshown, hfront]
  refine flatMap_linesFor_of_gap h rfl ?_ ?_
  · intro s hs
    have hlt := (List.mem_zipIdx hs).2.1
    rw [List.length_take, Nat.min_eq_left hfive.le] at hlt
    rw [shownAtEnds]
    omega
  · intro s hs
    have hle := (List.mem_zipIdx hs).1
    rw [shownAtEnds]
    omega

/-! ### What a reader relies on -/

/-- Lines show statements as they should.  The numbers rise, so that no statement is shown twice,
and are those of statements; under each number stands what is shown of its statement.  Up to ten
statements are all shown; of more the first five and the last five are, with one line between them
that says how many are left out. -/
structure Shows (statements : List String) (lines : List PreviewLine) : Prop where
  rising : (numbers lines).Pairwise (· < ·)
  inside : ∀ number ∈ numbers lines, 1 ≤ number ∧ number ≤ statements.length
  headlines : ∀ number shown, .statement number shown ∈ lines →
    ∃ s, statements[number - 1]? = some s ∧ IsHeadline s shown
  few : statements.length ≤ 10 →
    numbers lines = List.range' 1 statements.length ∧ gaps lines = []
  many : 10 < statements.length → ∃ before count after, lines = before ++ .gap count :: after ∧
    numbers before = [1, 2, 3, 4, 5] ∧ gaps before = [] ∧
    numbers after = List.range' (statements.length - 4) 5 ∧ gaps after = [] ∧
    count + 10 = statements.length

theorem shows_preview (statements : List String) : Shows statements (preview statements) := by
  have hheadlines : ∀ number shown, .statement number shown ∈ preview statements →
      1 ≤ number ∧ ∃ s, statements[number - 1]? = some s ∧ IsHeadline s shown := by
    intro number shown hline
    obtain ⟨s, hs, rfl⟩ := mem_flatMap_linesFor hline
    obtain ⟨hle, hget⟩ := getElem?_of_mem_shown hs
    exact ⟨hle, s, hget, isHeadline_headline s⟩
  have hinside : ∀ number ∈ numbers (preview statements),
      1 ≤ number ∧ number ≤ statements.length := by
    intro number hnumber
    obtain ⟨line, hline, hshown⟩ := List.mem_filterMap.1 hnumber
    cases line with
    | statement number' shown =>
      cases hshown
      obtain ⟨hle, s, hget, -⟩ := hheadlines number shown hline
      have hlt := (List.getElem?_eq_some_iff.1 hget).1
      exact ⟨hle, by omega⟩
    | gap count => exact nomatch hshown
  have hfew (h : statements.length ≤ 10) : numbers (preview statements) =
      List.range' 1 statements.length ∧ gaps (preview statements) = [] := by
    rw [preview_of_few h, numbers_map_lineFor, gaps_map_lineFor, List.zipIdx_map_snd]
    exact ⟨rfl, rfl⟩
  have hmany (h : 10 < statements.length) : ∃ before count after,
      preview statements = before ++ .gap count :: after ∧
      numbers before = [1, 2, 3, 4, 5] ∧ gaps before = [] ∧
      numbers after = List.range' (statements.length - 4) 5 ∧ gaps after = [] ∧
      count + 10 = statements.length := by
    refine ⟨_, _, _, preview_of_many h, ?_, gaps_map_lineFor _, ?_, gaps_map_lineFor _, by omega⟩
    · rw [numbers_map_lineFor, List.zipIdx_map_snd, List.length_take, Nat.min_eq_left (by omega)]
      rfl
    · rw [numbers_map_lineFor, List.zipIdx_map_snd, List.length_drop,
        show statements.length - (statements.length - 5) = 5 by omega]
  refine ⟨?_, hinside, fun number shown hline => (hheadlines number shown hline).2, hfew, hmany⟩
  rcases Nat.lt_or_ge 10 statements.length with hlong | hshort
  · obtain ⟨before, count, after, heq, hbefore, -, hafter, -, -⟩ := hmany hlong
    have hnumbers : numbers (preview statements) =
        List.range' 1 5 ++ List.range' (statements.length - 4) 5 := by
      rw [heq, numbers_append, hbefore]
      exact congrArg _ hafter
    rw [hnumbers, List.pairwise_append]
    refine ⟨List.pairwise_lt_range' 1, List.pairwise_lt_range' 1, fun i hi j hj => ?_⟩
    rw [List.mem_range'_1] at hi hj
    omega
  · rw [(hfew hshort).1]
    exact List.pairwise_lt_range' 1

/-- Of eleven statements one is left out. -/
example : (preview ["a;", "b;", "c;", "d;", "e;", "f;", "g;\n\n-- h", "i;", "j;", "k;", "l;"]).map
    PreviewLine.text = ["1. a;", "2. b;", "3. c;", "4. d;", "5. e;", "... (1 more statements) ...",
      "7. g;", "8. i;", "9. j;", "10. k;", "11. l;"] := by
  decide +kernel

end CommandLine
end SchemaCompiler
