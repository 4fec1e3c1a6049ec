import Mathlib
import SchemaCompiler.Proofs.Outcome
import SchemaCompiler.Proofs.Sql.Scanner
import SchemaCompiler.Text.Line

/-!
# Scanning texts that are put together

Statements are put together from fixed text, texts that a schema provides, literals and bodies.
The rules here follow a text from left to right and say where its scan ends.

* `Ends`, `Settles` — where the scan of a text ends, if what follows is harmless, and whatever
  follows;
* `Closed` — texts that can stand in plain text without any effect on what is around them;
* `closed_textLiteral` — **every text is closed once it is a literal**;
* `Settles.body` — a text without double dollars stays inside a body;
* `ends_joinWith` — texts that are joined have as many statements as all of them together.
-/

namespace SchemaCompiler.Sql

open Text (joinWith)

/-! ### Texts and where their scans end -/

/-- A text whose scan ends in a mode after some statements, if what follows starts with no part of
a mark. -/
def Ends (s : String) (mode : Mode) (n : Nat) : Prop := scan .plain s.toList = ⟨mode, n, 0⟩

instance (s : String) (mode : Mode) (n : Nat) : Decidable (Ends s mode n) :=
  inferInstanceAs (Decidable (_ = _))

/-- A text whose scan comes to a mode after some statements, whatever follows. -/
def Settles (s : String) (mode : Mode) (n : Nat) : Prop :=
  ∀ rest, scan .plain (s.toList ++ rest) = (scan mode rest).after n 0

/-- A closed text: plain text at its start and its end, with no end of a statement and no comment
in between. -/
abbrev Closed (s : String) : Prop := Ends s .plain 0

/-- A text that takes the scan from one mode to another, past some ends of statements, and that ends
with no part of a mark. -/
def Passes (s : String) (mode next : Mode) (n : Nat) : Prop :=
  scan mode s.toList = ⟨next, n, 0⟩ ∧ ∀ c, s.toList.getLast? = some c → isMark c = false

/-- A text that starts with no part of a mark. -/
def Starts (s : String) : Prop := ∃ c cs, s.toList = c :: cs ∧ isMark c = false

/-- A text that does both, so that it can stand after and before any other. -/
def Fixed (s : String) (mode next : Mode) (n : Nat) : Prop := Passes s mode next n ∧ Starts s

/-! ### Fixed texts

What holds of a fixed text is computed from the list of its characters. -/

/-- Whether characters take the scan from one mode to another and end with no part of a mark. -/
def passes (mode next : Mode) (n : Nat) (cs : List Char) : Bool :=
  scan mode cs = ⟨next, n, 0⟩ && cs.getLast?.all fun c => !isMark c

/-- Whether characters start with no part of a mark. -/
def starts (cs : List Char) : Bool := cs.head?.any fun c => !isMark c

theorem Ends.of_chars {cs : List Char} {mode : Mode} {n : Nat}
    (h : scan .plain cs = ⟨mode, n, 0⟩) : Ends (String.ofList cs) mode n := by
  rwa [Ends, String.toList_ofList]

theorem Passes.of_chars {cs : List Char} {mode next : Mode} {n : Nat}
    (h : passes mode next n cs = true) : Passes (String.ofList cs) mode next n := by
  rw [passes, Bool.and_eq_true, decide_eq_true_eq] at h
  rw [Passes, String.toList_ofList]
  refine ⟨h.1, fun c hc => ?_⟩
  simpa [hc] using h.2

theorem Starts.of_chars {cs : List Char} (h : starts cs = true) : Starts (String.ofList cs) := by
  rw [Starts, String.toList_ofList]
  cases cs with
  | nil => exact nomatch h
  | cons c cs => exact ⟨c, cs, rfl, by simpa [starts] using h⟩

theorem Fixed.of_chars {cs : List Char} {mode next : Mode} {n : Nat}
    (h : (passes mode next n cs && starts cs) = true) : Fixed (String.ofList cs) mode next n := by
  rw [Bool.and_eq_true] at h
  exact ⟨.of_chars h.1, .of_chars h.2⟩

/-! ### From left to right -/

section Rules

variable {a b : String} {mode next : Mode} {n k : Nat}

theorem Passes.scan_append (h : Passes a mode next n) (rest : List Char) :
    scan mode (a.toList ++ rest) = (scan next rest).after n 0 := by
  rw [scan_append_any _ _ _ h.2, h.1]

theorem Starts.append (h : Starts a) : Starts (a ++ b) := by
  obtain ⟨c, cs, ha, hc⟩ := h
  exact ⟨c, cs ++ b.toList, by rw [String.toList_append, ha, List.cons_append], hc⟩

theorem Starts.neutral (h : Starts a) (rest : List Char) : Neutral (a.toList ++ rest) := by
  obtain ⟨c, cs, ha, hc⟩ := h
  rw [ha, List.cons_append]
  exact .cons hc _

theorem Ends.scan_append (h : Ends a mode n) {rest : List Char} (hrest : Neutral rest) :
    scan .plain (a.toList ++ rest) = (scan mode rest).after n 0 := by
  rw [Sql.scan_append _ _ _ hrest, h]

/-- A text of which nothing is known but that it settles can be followed by any. -/
theorem Settles.append (h : Settles a .plain n) (hb : Ends b mode k) :
    Ends (a ++ b) mode (n + k) := by
  rw [Ends, String.toList_append, h, hb]
  rfl

theorem Settles.ends (h : Settles a mode n) : Ends a mode n := by
  have hnil := h []
  rwa [List.append_nil, scan] at hnil

theorem Passes.settles (h : Passes a .plain mode n) : Settles a mode n := h.scan_append

theorem Settles.text (h : Settles a mode n) (hb : Passes b mode next k) :
    Settles (a ++ b) next (n + k) := by
  intro rest
  rw [String.toList_append, List.append_assoc, h, hb.scan_append, Scan.after_after]

theorem Ends.text (h : Ends a mode n) (hb : Fixed b mode next k) :
    Settles (a ++ b) next (n + k) := by
  intro rest
  rw [String.toList_append, List.append_assoc, h.scan_append (hb.2.neutral rest),
    hb.1.scan_append, Scan.after_after]

/-- Fixed text inside a statement. -/
theorem Ends.code (h : Ends a .plain n) (hb : Fixed b .plain .plain 0) :
    Settles (a ++ b) .plain n := h.text hb

/-- Fixed text with the end of a statement. -/
theorem Ends.finish (h : Ends a .plain n) (hb : Fixed b .plain .plain 1) :
    Settles (a ++ b) .plain (n + 1) := h.text hb

/-- A closed text. -/
theorem Settles.closed (h : Settles a .plain n) (hb : Closed b) : Ends (a ++ b) .plain n :=
  h.append hb

/-- A closed text after fixed text. -/
theorem Passes.closed (h : Passes a .plain .plain n) (hb : Closed b) : Ends (a ++ b) .plain n :=
  h.settles.closed hb

/-- Fixed text after fixed text. -/
theorem Settles.code (h : Settles a .plain n) (hb : Passes b .plain .plain 0) :
    Settles (a ++ b) .plain n := h.text hb

/-- A clause that may be missing: nothing, or a closed text that starts with no part of a mark. -/
def Clause (s : String) : Prop := Closed s ∧ Neutral s.toList

theorem Clause.empty : Clause "" := ⟨rfl, .nil⟩

theorem Clause.ite {c : Prop} [Decidable c] (h : Clause a) : Clause (if c then a else "") := by
  split
  · exact h
  · exact .empty

theorem Starts.clause (h : Starts a) (ha : Closed a) : Clause a := by
  have hneutral := h.neutral []
  rw [List.append_nil] at hneutral
  exact ⟨ha, hneutral⟩

theorem Fixed.clause (ha : Fixed a .plain .plain 0) (hb : Closed b) : Clause (a ++ b) :=
  ha.2.append.clause (ha.1.closed hb)

theorem Ends.clause (h : Ends a .plain n) (hb : Clause b) : Ends (a ++ b) .plain n := by
  rw [Ends, String.toList_append, h.scan_append hb.2, hb.1]
  rfl

/-! ### Literals -/

theorem doubleQuotes_cons (c : Char) (cs : List Char) : doubleQuotes (c :: cs) =
    if c = '\'' then '\'' :: '\'' :: doubleQuotes cs else c :: doubleQuotes cs := by
  rw [doubleQuotes, List.flatMap_cons]
  split <;> rfl

/-- The text between the quotes of a literal does not end it. -/
theorem scan_doubleQuotes (cs rest : List Char) :
    scan .literal (doubleQuotes cs ++ rest) = scan .literal rest := by
  induction cs with
  | nil => rfl
  | cons c cs ih =>
    rw [doubleQuotes_cons]
    split
    next => exact ih
    next hc =>
      rw [List.cons_append, scan_literal_cons hc]
      exact ih

theorem toList_textLiteral (s : String) :
    (textLiteral s).toList = '\'' :: (doubleQuotes s.toList ++ ['\'']) := by
  simp only [textLiteral, String.toList_append, String.toList_ofList]
  rfl

/-- **Every text is closed once it is a literal.** -/
theorem closed_textLiteral (s : String) : Closed (textLiteral s) := by
  rw [Closed, Ends, toList_textLiteral, scan, scan_doubleQuotes]
  rfl

theorem closed_literal (v : Value) : Closed (literal v) := closed_textLiteral v.toText

/-! ### Bodies -/

/-- A text in which two dollars never stand side by side. -/
def NoDollars (s : String) : Prop := ¬['$', '$'] <:+: s.toList

theorem NoDollars.of_chars {cs : List Char} (h : ¬['$', '$'] <:+: cs) :
    NoDollars (String.ofList cs) := by
  rwa [NoDollars, String.toList_ofList]

theorem scan_body {cs : List Char} (h : ¬['$', '$'] <:+: cs) : scan .body cs = ⟨.body, 0, 0⟩ := by
  induction cs with
  | nil => rfl
  | cons c cs ih =>
    rw [scan_body_cons, ih fun hinfix => h (List.infix_cons hinfix)]
    rintro rfl hhead
    obtain ⟨rest, rfl⟩ : ∃ rest, cs = '$' :: rest := by
      cases cs with
      | nil => simp at hhead
      | cons d cs =>
        rw [List.head?_cons, Option.some.injEq] at hhead
        exact ⟨cs, by rw [hhead]⟩
    exact h (List.prefix_append ['$', '$'] rest).isInfix

/-- A text that does not end the body that it is in. -/
def Inside (s : String) : Prop := scan .body s.toList = ⟨.body, 0, 0⟩

theorem NoDollars.inside (h : NoDollars a) : Inside a := scan_body h

theorem Inside.between (h : Inside b) {c : String} (ha : Passes a .body .body 0)
    (hc : Fixed c .body .body 0) : Inside (a ++ b ++ c) := by
  have hneutral := hc.2.neutral []
  rw [List.append_nil] at hneutral
  rw [Inside, String.toList_append, String.toList_append, List.append_assoc, ha.scan_append,
    scan_append _ _ _ hneutral, h, hc.1.1]
  rfl

/-- The start of a body. -/
theorem Ends.opens (h : Ends a .plain n) (hb : Fixed b .plain .body 0) :
    Settles (a ++ b) .body n := h.text hb

/-- Fixed text inside a body. -/
theorem Ends.inside (h : Ends a .body n) (hb : Fixed b .body .body 0) :
    Settles (a ++ b) .body n := h.text hb

theorem Settles.inside (h : Settles a .body n) (hb : Passes b .body .body 0) :
    Settles (a ++ b) .body n := h.text hb

/-- A text without double dollars inside a body. -/
theorem Settles.body (h : Settles a .body n) (hb : Inside b) : Ends (a ++ b) .body n := by
  rw [Ends, String.toList_append, h, hb]
  rfl

/-- The end of a body inside a statement. -/
theorem Ends.closes (h : Ends a .body n) (hb : Fixed b .body .plain 0) :
    Settles (a ++ b) .plain n := h.text hb

/-- The end of a body together with that of its statement. -/
theorem Settles.closes (h : Settles a .body n) (hb : Passes b .body .plain 1) :
    Settles (a ++ b) .plain (n + 1) := h.text hb

end Rules

/-! ### Joined texts -/

/-- A fixed text between others that is part of no mark and ends no statement. -/
abbrev IsSeparator (s : String) : Prop := Fixed s .plain .plain 0

/-- **Joined texts have as many statements as all of them together.** -/
theorem ends_joinWith {separator : String} (hsep : IsSeparator separator) {items : List String}
    {counts : List Nat} (h : List.Forall₂ (fun s n => Ends s .plain n) items counts) :
    Ends (joinWith separator items) .plain counts.sum := by
  induction h with
  | nil => rfl
  | @cons s n items counts hs hrest ih =>
    cases hrest with
    | nil => exact hs
    | @cons t k items counts ht hrest =>
      rw [joinWith, List.sum_cons]
      exact (hs.code hsep).append ih

theorem ends_joinWith_map {α : Type} {separator : String} (hsep : IsSeparator separator)
    {f : α → String} {k : α → Nat} {xs : List α} (h : ∀ x ∈ xs, Ends (f x) .plain (k x)) :
    Ends (joinWith separator (xs.map f)) .plain (xs.map k).sum := by
  refine ends_joinWith hsep ?_
  rw [List.forall₂_map_left_iff, List.forall₂_map_right_iff, List.forall₂_same]
  exact h

/-- Texts that come out of a list of computations, with the statements of each. -/
theorem ends_of_mapM {α : Type} {f : α → Except Fault String} {k : α → Nat} {xs : List α}
    {texts : List String} (h : xs.mapM f = .ok texts)
    (hf : ∀ x ∈ xs, ∀ text, f x = .ok text → Ends text .plain (k x)) :
    List.Forall₂ (fun s n => Ends s .plain n) texts (xs.map k) := by
  have hall := mapM_eq_ok.1 h
  clear h
  induction hall with
  | nil => exact .nil
  | @cons x text xs texts htext _ ih =>
    exact .cons (hf x List.mem_cons_self text htext)
      (ih fun y hy => hf y (List.mem_cons_of_mem x hy))

theorem ends_joinWith_length {separator : String} (hsep : IsSeparator separator)
    {items : List String} (h : ∀ s ∈ items, Ends s .plain 1) :
    Ends (joinWith separator items) .plain items.length := by
  have hends := ends_joinWith_map hsep (f := id) (k := fun _ => 1) h
  rwa [List.map_id, List.map_const', List.sum_replicate_nat, Nat.mul_one] at hends

theorem closed_joinWith {separator : String} (hsep : IsSeparator separator) {items : List String}
    (h : ∀ s ∈ items, Closed s) : Closed (joinWith separator items) := by
  have hends := ends_joinWith_map hsep (f := id) (k := fun _ => 0) h
  rwa [List.map_id, List.map_const', List.sum_replicate_nat, Nat.mul_zero] at hends

end SchemaCompiler.Sql
