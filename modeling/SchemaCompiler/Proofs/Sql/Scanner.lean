import SchemaCompiler.Sql.Literal

/-!
# Scanning SQL

How far a text in SQL is plain text, and how far it is inside a literal, a body between double
dollars or a comment.  Statements end at the semicolons of the plain text, so `scan` counts these,
and the comments.

* `scan` — the scanner, with one character of lookahead;
* `scan_append`, `scan_append_any` — **the scan of a text goes on where that of its first part
  ends**, as long as no mark of two characters lies across the boundary.
-/

namespace SchemaCompiler.Sql

/-- What a scan is in the middle of. -/
inductive Mode where
  | plain | literal | body | comment
  deriving DecidableEq, Repr

/-- What a scan has come to: its mode, and how many semicolons and comments it met in plain
text. -/
structure Scan where
  mode : Mode
  semicolons : Nat
  comments : Nat
  deriving DecidableEq, Repr

/-- A scan that had met some semicolons and comments before. -/
def Scan.after (s : Scan) (semicolons comments : Nat) : Scan :=
  ⟨s.mode, semicolons + s.semicolons, comments + s.comments⟩

/-- The scan of a text.  Inside a literal two quotes are one that belongs to it. -/
def scan : Mode → List Char → Scan
  | mode, [] => ⟨mode, 0, 0⟩
  | .plain, '\'' :: cs => scan .literal cs
  | .plain, '$' :: '$' :: cs => scan .body cs
  | .plain, '-' :: '-' :: cs => (scan .comment cs).after 0 1
  | .plain, ';' :: cs => (scan .plain cs).after 1 0
  | .plain, _ :: cs => scan .plain cs
  | .literal, '\'' :: '\'' :: cs => scan .literal cs
  | .literal, '\'' :: cs => scan .plain cs
  | .literal, _ :: cs => scan .literal cs
  | .body, '$' :: '$' :: cs => scan .plain cs
  | .body, _ :: cs => scan .body cs
  | .comment, '\n' :: cs => scan .plain cs
  | .comment, '\r' :: cs => scan .plain cs
  | .comment, _ :: cs => scan .comment cs

/-- Whether a character may be part of a mark of two. -/
def isMark (c : Char) : Bool := c == '\'' || c == '$' || c == '-'

/-- Whether a text starts with no part of a mark, so that it can follow any text. -/
def Neutral (cs : List Char) : Prop := ∀ c, cs.head? = some c → isMark c = false

theorem Neutral.nil : Neutral [] := nofun

theorem Neutral.cons {c : Char} (h : isMark c = false) (cs : List Char) : Neutral (c :: cs) := by
  intro d hd
  rw [List.head?_cons, Option.some.injEq] at hd
  rwa [← hd]

theorem Scan.after_zero (s : Scan) : s.after 0 0 = s := by simp [Scan.after]

theorem Scan.after_after (s : Scan) (a b c d : Nat) :
    (s.after a b).after c d = s.after (c + a) (d + b) := by
  simp [Scan.after, Nat.add_assoc]

/-- A mark does not come about at the boundary to a text that starts with no part of one. -/
theorem Neutral.head?_append {xs ys : List Char} (h : Neutral ys) {c : Char} (hc : isMark c = true)
    (hxs : ∀ rest, xs ≠ c :: rest) : (xs ++ ys).head? ≠ some c := by
  intro hhead
  cases xs with
  | nil =>
    rw [h c hhead] at hc
    exact absurd hc (by decide)
  | cons x xs =>
    rw [List.cons_append, List.head?_cons, Option.some.injEq] at hhead
    exact hxs xs (by rw [hhead])

/-! ### One character -/

theorem scan_plain_cons {c : Char} {cs : List Char} (hquote : c ≠ '\'')
    (hdollar : c = '$' → cs.head? ≠ some '$') (hdash : c = '-' → cs.head? ≠ some '-')
    (hsemicolon : c ≠ ';') : scan .plain (c :: cs) = scan .plain cs := by
  rw [scan]
  · exact hquote
  · rintro rest rfl rfl
    exact hdollar rfl rfl
  · rintro rest rfl rfl
    exact hdash rfl rfl
  · exact hsemicolon

theorem scan_literal_cons {c : Char} (hquote : c ≠ '\'') (cs : List Char) :
    scan .literal (c :: cs) = scan .literal cs := by
  rw [scan]
  · rintro rest rfl
    exact absurd rfl hquote
  · exact hquote

theorem scan_literal_end {cs : List Char} (hquote : cs.head? ≠ some '\'') :
    scan .literal ('\'' :: cs) = scan .plain cs := by
  rw [scan]
  rintro rest rfl
  exact hquote rfl

theorem scan_body_cons {c : Char} {cs : List Char} (hdollar : c = '$' → cs.head? ≠ some '$') :
    scan .body (c :: cs) = scan .body cs := by
  rw [scan]
  rintro rest rfl rfl
  exact hdollar rfl rfl

theorem scan_comment_cons {c : Char} (hfeed : c ≠ '\n') (hreturn : c ≠ '\r') (cs : List Char) :
    scan .comment (c :: cs) = scan .comment cs := by
  rw [scan]
  · exact hfeed
  · exact hreturn

/-- Characters that may be part of no mark, and end nothing. -/
def isOrdinary (c : Char) : Bool := !isMark c && c != ';' && c != '\n' && c != '\r'

theorem scan_ordinary {c : Char} (h : isOrdinary c = true) (mode : Mode) (cs : List Char) :
    scan mode (c :: cs) = scan mode cs := by
  simp only [isOrdinary, isMark, Bool.and_eq_true, Bool.not_eq_true', Bool.or_eq_false_iff,
    beq_eq_false_iff_ne, bne_iff_ne] at h
  obtain ⟨⟨⟨⟨⟨hquote, hdollar⟩, hdash⟩, hsemicolon⟩, hfeed⟩, hreturn⟩ := h
  cases mode with
  | plain =>
    exact scan_plain_cons hquote (fun heq => absurd heq hdollar) (fun heq => absurd heq hdash)
      hsemicolon
  | literal => exact scan_literal_cons hquote cs
  | body => exact scan_body_cons fun heq => absurd heq hdollar
  | comment => exact scan_comment_cons hfeed hreturn cs

/-- A text without marks, ends of statements and line ends. -/
def Ordinary (cs : List Char) : Prop := ∀ c ∈ cs, isOrdinary c = true

/-- Ordinary text changes nothing, whatever the mode. -/
theorem Ordinary.scan_append {xs : List Char} (h : Ordinary xs) (mode : Mode) (ys : List Char) :
    scan mode (xs ++ ys) = scan mode ys := by
  induction xs with
  | nil => rfl
  | cons x xs ih =>
    rw [List.cons_append, scan_ordinary (h x List.mem_cons_self),
      ih fun c hc => h c (List.mem_cons_of_mem x hc)]

/-! ### One text after another -/

/-- **The scan of a text goes on where that of its first part ends.** -/
theorem scan_append (mode : Mode) (xs ys : List Char) (h : Neutral ys) :
    scan mode (xs ++ ys) =
      (scan (scan mode xs).mode ys).after (scan mode xs).semicolons (scan mode xs).comments := by
  have hquote : isMark '\'' = true := by decide
  have hdollar : isMark '$' = true := by decide
  have hdash : isMark '-' = true := by decide
  fun_induction scan mode xs with
  | case1 mode => exact (Scan.after_zero _).symm
  | case2 cs ih => exact ih
  | case3 cs ih => exact ih
  | case4 cs ih =>
    show (scan .comment (cs ++ ys)).after 0 1 = _
    rw [ih, Scan.after_after]
    rfl
  | case5 cs ih =>
    show (scan .plain (cs ++ ys)).after 1 0 = _
    rw [ih, Scan.after_after]
    rfl
  | case6 c cs hc hcs hcs' hc' ih =>
    rw [List.cons_append, scan_plain_cons hc _ _ hc', ih]
    · rintro rfl
      exact h.head?_append hdollar fun rest => hcs rest rfl
    · rintro rfl
      exact h.head?_append hdash fun rest => hcs' rest rfl
  | case7 cs ih => exact ih
  | case8 cs hcs ih =>
    rw [List.cons_append, scan_literal_end (h.head?_append hquote hcs), ih]
  | case9 c cs _ hc ih => rw [List.cons_append, scan_literal_cons hc, ih]
  | case10 cs ih => exact ih
  | case11 c cs hcs ih =>
    rw [List.cons_append, scan_body_cons, ih]
    rintro rfl
    exact h.head?_append hdollar fun rest => hcs rest rfl
  | case12 cs ih => exact ih
  | case13 cs ih => exact ih
  | case14 c cs hfeed hreturn ih => rw [List.cons_append, scan_comment_cons hfeed hreturn, ih]

/-- After one character that is no part of a mark, the scan goes on with any text. -/
theorem scan_cons {c : Char} (hc : isMark c = false) (mode : Mode) (ys : List Char) :
    scan mode (c :: ys) =
      (scan (scan mode [c]).mode ys).after (scan mode [c]).semicolons (scan mode [c]).comments := by
  by_cases hord : isOrdinary c = true
  · have hone : scan mode [c] = ⟨mode, 0, 0⟩ := by
      rw [scan_ordinary hord, scan]
    rw [hone, Scan.after_zero, scan_ordinary hord]
  · have hcases : c = ';' ∨ c = '\n' ∨ c = '\r' := by
      simpa [isOrdinary, hc, Decidable.or_iff_not_imp_left] using hord
    rcases hcases with rfl | hbreak
    · cases mode with
      | plain => rfl
      | literal | body | comment => exact (Scan.after_zero _).symm
    · rcases hbreak with rfl | rfl <;> cases mode <;> exact (Scan.after_zero _).symm

/-- **The scan goes on after a text that ends with no part of a mark**, whatever follows. -/
theorem scan_append_any (mode : Mode) (xs ys : List Char)
    (h : ∀ c, xs.getLast? = some c → isMark c = false) :
    scan mode (xs ++ ys) =
      (scan (scan mode xs).mode ys).after (scan mode xs).semicolons (scan mode xs).comments := by
  rcases List.eq_nil_or_concat xs with rfl | ⟨xs, c, rfl⟩
  · exact (Scan.after_zero _).symm
  · rw [List.concat_eq_append] at h ⊢
    have hc : isMark c = false := h c List.getLast?_concat
    rw [List.append_assoc, List.singleton_append,
      scan_append mode xs (c :: ys) (.cons hc ys), scan_append mode xs [c] (.cons hc []),
      scan_cons hc, Scan.after_after]
    simp only [Scan.after]

end SchemaCompiler.Sql
