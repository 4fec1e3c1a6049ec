import SchemaCompiler.Text.Line

/-!
# Joining and splitting

Texts that are joined can be taken apart again where the separator has a mark that none of them has.

* `splitAt_append_mark`, `splitAt_of_notMem` — a text is split piece by piece;
* `flatMap_splitAt` — splitting loses nothing;
* `withCommas`, `withoutCommas` — pieces that are separated by commas;
* `splitAt_joinWith` — **joined texts are split into themselves**, with their commas.
-/

namespace SchemaCompiler.Text

/-! ### Splitting -/

theorem splitAt_ne_nil (mark : Char) (cs : List Char) : splitAt mark cs ≠ [] := by
  cases cs with
  | nil => simp [splitAt]
  | cons c cs =>
    rw [splitAt]
    split
    · simp
    · split <;> simp

/-- The pieces of what stands before a mark, then the pieces of what stands after it. -/
theorem splitAt_append_mark (mark : Char) (before after : List Char) :
    splitAt mark (before ++ mark :: after) = splitAt mark before ++ splitAt mark after := by
  induction before with
  | nil => simp [splitAt]
  | cons c before ih =>
    rw [List.cons_append, splitAt, splitAt, ih]
    by_cases hc : c = mark
    · simp [hc]
    · rw [if_neg hc, if_neg hc]
      cases h : splitAt mark before with
      | nil => exact absurd h (splitAt_ne_nil mark before)
      | cons piece pieces => rfl

theorem splitAt_of_notMem {mark : Char} {cs : List Char} (h : mark ∉ cs) :
    splitAt mark cs = [cs] := by
  induction cs with
  | nil => rfl
  | cons c cs ih =>
    rw [List.mem_cons, not_or] at h
    rw [splitAt, if_neg (Ne.symm h.1), ih h.2]

/-- A piece without the mark comes first. -/
theorem splitAt_cons {mark : Char} {piece : List Char} (h : mark ∉ piece) (rest : List Char) :
    splitAt mark (piece ++ mark :: rest) = piece :: splitAt mark rest := by
  rw [splitAt_append_mark, splitAt_of_notMem h, List.singleton_append]

/-- The pieces with the marks before them are the text again. -/
theorem flatMap_splitAt (mark : Char) (cs : List Char) :
    (splitAt mark cs).flatMap (mark :: ·) = mark :: cs := by
  induction cs with
  | nil => rfl
  | cons c cs ih =>
    rw [splitAt]
    split
    next hc => rw [List.flatMap_cons, ih, hc, List.singleton_append]
    next =>
      cases hpieces : splitAt mark cs with
      | nil => exact absurd hpieces (splitAt_ne_nil mark cs)
      | cons piece pieces =>
        rw [hpieces, List.flatMap_cons, List.cons_append, List.cons.injEq] at ih
        simp only [List.flatMap_cons, List.cons_append, ih.2]

/-- A piece without the mark comes first, and nothing of what follows it is lost. -/
theorem splitAt_append_lines {mark : Char} {piece rest : List Char} (h : mark ∉ piece)
    (hrest : ∀ c, rest.head? = some c → c = mark) :
    ∃ pieces, splitAt mark (piece ++ rest) = piece :: pieces ∧
      pieces.flatMap (mark :: ·) = rest := by
  cases rest with
  | nil => exact ⟨[], by rw [List.append_nil, splitAt_of_notMem h], rfl⟩
  | cons c rest =>
    obtain rfl := hrest c rfl
    exact ⟨splitAt c rest, splitAt_cons h rest, flatMap_splitAt c rest⟩

/-! ### Joining -/

theorem toList_joinWith_cons (separator s : String) (rest : List String) :
    (joinWith separator (s :: rest)).toList =
      s.toList ++ rest.flatMap fun t => separator.toList ++ t.toList := by
  induction rest generalizing s with
  | nil => simp [joinWith]
  | cons t rest ih => simp [joinWith, ih]

theorem notMem_append {c : Char} {a b : String} (ha : c ∉ a.toList) (hb : c ∉ b.toList) :
    c ∉ (a ++ b).toList := by
  rw [String.toList_append]
  exact List.not_mem_append ha hb

/-- Joined texts have no characters but those of the texts and of the separator. -/
theorem notMem_joinWith {c : Char} {separator : String} (hseparator : c ∉ separator.toList)
    {items : List String} (h : ∀ s ∈ items, c ∉ s.toList) :
    c ∉ (joinWith separator items).toList := by
  cases items with
  | nil => exact List.not_mem_nil
  | cons s rest =>
    rw [toList_joinWith_cons]
    refine List.not_mem_append (h s List.mem_cons_self) fun hc => ?_
    obtain ⟨t, ht, hc⟩ := List.mem_flatMap.1 hc
    exact List.not_mem_append hseparator (h t (List.mem_cons_of_mem s ht)) hc

/-- All pieces but the last one with a comma at the end. -/
def withCommas : List (List Char) → List (List Char)
  | [] => []
  | [piece] => [piece]
  | piece :: next :: rest => (piece ++ [',']) :: withCommas (next :: rest)

/-- All pieces but the last one without their last character. -/
def withoutCommas : List (List Char) → List (List Char)
  | [] => []
  | [piece] => [piece]
  | piece :: next :: rest => piece.dropLast :: withoutCommas (next :: rest)

theorem length_withCommas (pieces : List (List Char)) :
    (withCommas pieces).length = pieces.length := by
  fun_induction withCommas pieces with
  | case1 => rfl
  | case2 piece => rfl
  | case3 piece next rest ih => rw [List.length_cons, List.length_cons, ih]

theorem withoutCommas_withCommas (pieces : List (List Char)) :
    withoutCommas (withCommas pieces) = pieces := by
  fun_induction withCommas pieces with
  | case1 => rfl
  | case2 piece => rfl
  | case3 piece next rest ih =>
    cases hrest : withCommas (next :: rest) with
    | nil =>
      have hlength := length_withCommas (next :: rest)
      rw [hrest] at hlength
      exact absurd hlength nofun
    | cons piece' pieces' => rw [withoutCommas, ← hrest, ih, List.dropLast_concat]

/-- Pieces that end in a comma or not start as they do without it. -/
theorem mem_withCommas {piece : List Char} {pieces : List (List Char)}
    (h : piece ∈ withCommas pieces) : ∃ p ∈ pieces, p <+: piece := by
  fun_induction withCommas pieces with
  | case1 => exact absurd h List.not_mem_nil
  | case2 p => exact ⟨p, List.mem_singleton.2 rfl, List.mem_singleton.1 h ▸ List.prefix_rfl⟩
  | case3 p next rest ih =>
    rcases List.mem_cons.1 h with rfl | h
    · exact ⟨p, List.mem_cons_self, List.prefix_append p _⟩
    · obtain ⟨q, hq, hprefix⟩ := ih h
      exact ⟨q, List.mem_cons_of_mem p hq, hprefix⟩

/-- **Joined texts are split into themselves**, with the commas and the indentation that belong to
the separator. -/
theorem splitAt_joinWith {mark : Char} {indent : List Char} (hcomma : mark ≠ ',')
    (hindent : mark ∉ indent) (s : String) {rest : List String}
    (h : ∀ t ∈ s :: rest, mark ∉ t.toList) :
    splitAt mark (indent ++
        (joinWith (String.ofList (',' :: mark :: indent)) (s :: rest)).toList) =
      withCommas ((s :: rest).map fun t => indent ++ t.toList) := by
  induction rest generalizing s with
  | nil =>
    have hpiece : mark ∉ indent ++ s.toList :=
      List.not_mem_append hindent (h s List.mem_cons_self)
    exact splitAt_of_notMem hpiece
  | cons t rest ih =>
    have hpiece : mark ∉ indent ++ s.toList ++ [','] := by
      refine List.not_mem_append (List.not_mem_append hindent (h s List.mem_cons_self)) ?_
      rwa [List.mem_singleton]
    have hchars : indent ++ (joinWith (String.ofList (',' :: mark :: indent))
        (s :: t :: rest)).toList = (indent ++ s.toList ++ [',']) ++ mark ::
          (indent ++ (joinWith (String.ofList (',' :: mark :: indent)) (t :: rest)).toList) := by
      simp [joinWith]
    rw [hchars, splitAt_cons hpiece, ih t fun u hu => h u (List.mem_cons_of_mem s hu)]
    rfl

end SchemaCompiler.Text
