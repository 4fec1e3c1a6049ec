import Mathlib.Data.List.Basic
import SchemaCompiler.Sql.Literal

/-!
# Reading conditions

A condition is a text in SQL.  What it means depends on how it is read: `NOT` binds before `AND`,
and `AND` before `OR`, unless parentheses say otherwise.  The reader here goes from the text to
tokens, from these to pieces, where what stands between brackets is one piece, and from pieces to a
`Condition`.

* `Token`, `lex` — tokens, read character by character; comments and blanks come apart from them;
* `Piece`, `nest` — brackets, read from the end, so that a group is read when its contents are;
* `Condition`, `read` — the condition of a text; what it compares is left to atoms;
* `lex_append`, `nest_frame` — **texts are read one after the other**, and so are groups;
* `read_parenthesized` — **a text in parentheses is read as a whole**;
* `Meaning`, `Condition.eval` — the value of a condition, in the three-valued logic of SQL.
-/

namespace SchemaCompiler.Sql

/-! ### Tokens -/

/-- What quotes stand around: the text of a literal, or a name. -/
inductive Quotation where
  | text
  | name
  deriving DecidableEq, Repr

/-- The quote itself. -/
def Quotation.mark : Quotation → Char
  | .text => '\''
  | .name => '"'

/-- A token of a condition. -/
inductive Token where
  /-- A keyword, a number or a name, also one with dots. -/
  | word (cs : List Char)
  | quoted (q : Quotation) (cs : List Char)
  | symbol (c : Char)
  | opening
  | closing
  deriving DecidableEq, Repr

/-- Whether a token is a keyword, in capitals or not. -/
def Token.isWord (keyword : String) : Token → Bool
  | .word cs => cs.map Char.toUpper == keyword.toList
  | _ => false

/-- What the reader of tokens is in the middle of. -/
inductive Lexing where
  | plain
  | word (before : List Char)
  | quoted (q : Quotation) (before : List Char)
  /-- After a quote, which is the last one if it is not doubled. -/
  | quote (q : Quotation) (before : List Char)
  | dash
  | slash
  | line
  /-- In a comment inside as many others, after the character `last`. -/
  | block (depth : Nat) (last : Char)
  deriving DecidableEq, Repr

/-- Whether a character separates tokens. -/
def isSpace (c : Char) : Bool := c == ' ' || ('\t' ≤ c && c ≤ '\r')

/-- Whether a character belongs to a word. -/
def isWordChar (c : Char) : Bool := c.isAlphanum || c == '_' || c == '.' || 128 ≤ c.toNat

/-- The first character of a token.  A semicolon is no part of a condition, and a dollar may start
a literal of another form, which is not read here. -/
def lexStart (c : Char) : Option (List Token × Lexing) :=
  if isSpace c then some ([], .plain)
  else if isWordChar c then some ([], .word [c])
  else if c == '\'' then some ([], .quoted .text [])
  else if c == '"' then some ([], .quoted .name [])
  else if c == '(' then some ([.opening], .plain)
  else if c == ')' then some ([.closing], .plain)
  else if c == '-' then some ([], .dash)
  else if c == '/' then some ([], .slash)
  else if c == ';' || c == '$' then none
  else some ([.symbol c], .plain)

/-- A token that has ended, and the first character of the next one. -/
def lexAfter (t : Token) (c : Char) : Option (List Token × Lexing) :=
  (lexStart c).map fun r => (t :: r.1, r.2)

/-- Whether a word is a name, of which the rest is still to come. -/
def endsInDot (cs : List Char) : Bool := cs.head? == some '.' && !cs.getLast?.any Char.isDigit

/-- The next character: the tokens that end before it or with it.  Escapes in a literal after an `E`
are not read here, and neither is a keyword that a dot some blanks before makes a name. -/
def lexStep : Lexing → Char → Option (List Token × Lexing)
  | .plain, c => lexStart c
  | .word cs, c =>
    if isWordChar c then some ([], .word (c :: cs))
    else if c == '\'' && cs.map Char.toUpper == ['E'] then none
    else if (isSpace c || c == '-' || c == '/') && endsInDot cs then none
    else lexAfter (.word cs.reverse) c
  | .quoted q cs, c => some ([], if c = q.mark then .quote q cs else .quoted q (c :: cs))
  | .quote q cs, c =>
    if c = q.mark then some ([], .quoted q (c :: cs)) else lexAfter (.quoted q cs.reverse) c
  | .dash, c => if c = '-' then some ([], .line) else lexAfter (.symbol '-') c
  | .slash, c => if c = '*' then some ([], .block 0 ' ') else lexAfter (.symbol '/') c
  | .line, c => some ([], if c = '\n' || c = '\r' then .plain else .line)
  | .block depth last, c =>
    if last = '*' && c = '/' then
      some ([], match depth with
        | 0 => .plain
        | depth + 1 => .block depth ' ')
    else if last = '/' && c = '*' then some ([], .block (depth + 1) ' ')
    else some ([], .block depth c)

/-- The tokens of a text, but for the one that it ends in. -/
def lex : Lexing → List Char → Option (List Token × Lexing)
  | s, [] => some ([], s)
  | s, c :: cs => (lexStep s c).bind fun r => (lex r.2 cs).map fun q => (r.1 ++ q.1, q.2)

/-- The token that a text ends in.  It may not end in a literal or in a comment. -/
def lexEnd : Lexing → Option (List Token)
  | .plain => some []
  | .word cs => some [.word cs.reverse]
  | .quote q cs => some [.quoted q cs.reverse]
  | .dash => some [.symbol '-']
  | .slash => some [.symbol '/']
  | .quoted _ _ => none
  | .line => none
  | .block _ _ => none

/-- All tokens of a text. -/
def tokens (cs : List Char) : Option (List Token) :=
  (lex .plain cs).bind fun r => (lexEnd r.2).map fun ts => r.1 ++ ts

/-! ### Conditions -/

/-- A condition as it is read. -/
inductive Condition where
  /-- What is neither a parenthesis nor put together by `NOT`, `AND` or `OR`. -/
  | atom (tokens : List Token)
  | paren (c : Condition)
  | not (c : Condition)
  | and (c d : Condition)
  | or (c d : Condition)
  deriving DecidableEq, Repr

/-- The sorts of brackets: parentheses, those of arrays, and `CASE` with `END`. -/
inductive Bracket where
  | paren
  | square
  | choice
  deriving DecidableEq, Repr

/-- A token that opens a bracket. -/
def Token.opens? (t : Token) : Option Bracket :=
  if t = .opening then some .paren
  else if t = .symbol '[' then some .square
  else if t.isWord "CASE" then some .choice
  else none

/-- A token that closes a bracket. -/
def Token.closes? (t : Token) : Option Bracket :=
  if t = .closing then some .paren
  else if t = .symbol ']' then some .square
  else if t.isWord "END" then some .choice
  else none

/-- A token outside of brackets, or all that is in brackets, with the condition that it is. -/
inductive Piece where
  | token (t : Token)
  | group (bracket : Bracket) (content : List Token) (reading : Option Condition)
  deriving DecidableEq, Repr

namespace Piece

/-- The tokens of a piece. -/
def tokens : Piece → List Token
  | .token t => [t]
  | .group .paren content _ => .opening :: content ++ [.closing]
  | .group .square content _ => .symbol '[' :: content ++ [.symbol ']']
  | .group .choice content _ => .word "CASE".toList :: content ++ [.word "END".toList]

/-- Whether a piece is a keyword. -/
def isWord (keyword : String) : Piece → Bool
  | .token t => t.isWord keyword
  | .group _ _ _ => false

end Piece

/-- Several conditions, put together from the first on. -/
def chain (op : Condition → Condition → Condition) : Condition → List Condition → Condition
  | c, [] => c
  | c, d :: ds => op c (chain op d ds)

/-- The pieces up to the first `OR`, and those between and after all of these. -/
def splitOr : List Piece → List Piece × List (List Piece)
  | [] => ([], [])
  | p :: ps =>
    let r := splitOr ps
    if p.isWord "OR" then ([], r.1 :: r.2) else (p :: r.1, r.2)

/-- The pieces up to the first `AND`, and those between and after all of these.  After `BETWEEN` the
next `AND` belongs to the atom. -/
def splitAnd : Bool → List Piece → List Piece × List (List Piece)
  | _, [] => ([], [])
  | between, p :: ps =>
    if p.isWord "AND" then
      let r := splitAnd false ps
      if between then (p :: r.1, r.2) else ([], r.1 :: r.2)
    else
      let r := splitAnd (between || p.isWord "BETWEEN") ps
      (p :: r.1, r.2)

/-- A condition without `AND` and `OR` outside of brackets. -/
def readOperand : List Piece → Option Condition
  | [] => none
  | [.group .paren _ reading] => reading.map .paren
  | p :: ps =>
    if p.isWord "NOT" then (readOperand ps).map .not
    else some (.atom ((p :: ps).flatMap Piece.tokens))

/-- A condition without `OR` outside of brackets. -/
def readConjunction (ps : List Piece) : Option Condition := do
  let r := splitAnd false ps
  let first ← readOperand r.1
  let others ← r.2.mapM readOperand
  return chain .and first others

/-- A condition. -/
def readPieces (ps : List Piece) : Option Condition := do
  let r := splitOr ps
  let first ← readConjunction r.1
  let others ← r.2.mapM readConjunction
  return chain .or first others

/-- Whether pieces are a query, which is a condition only as an atom in parentheses. -/
def isQuery (ps : List Piece) : Bool :=
  ps.head?.any fun p => p.isWord "SELECT" || p.isWord "WITH" || p.isWord "VALUES"

/-- What is between brackets. -/
def groupOf (bracket : Bracket) (ps : List Piece) : Piece :=
  let content := ps.flatMap Piece.tokens
  .group bracket content (if isQuery ps then some (.atom content) else readPieces ps)

/-- The pieces of the innermost bracket that is open, and those after each bracket around it. -/
abbrev Nest := List Piece × List (Bracket × List Piece)

/-- The token before all of these. -/
def nestStep (t : Token) (n : Nest) : Option Nest :=
  match t.closes? with
  | some b => some ([], (b, n.1) :: n.2)
  | none =>
    match t.opens? with
    | none => some (.token t :: n.1, n.2)
    | some b =>
      match n.2 with
      | [] => none
      | (b', ps) :: outer => if b = b' then some (groupOf b n.1 :: ps, outer) else none

/-- Tokens before some pieces, read from the last one. -/
def nest (n : Nest) (ts : List Token) : Option Nest :=
  ts.foldr (fun t n => n.bind (nestStep t)) (some n)

/-- The pieces of a text with no bracket left open. -/
def pieces (cs : List Char) : Option (List Piece) := do
  let ts ← tokens cs
  let n ← nest ([], []) ts
  if n.2.isEmpty then return n.1 else none

/-- The condition that a text is. -/
def read (s : String) : Option Condition := do
  let ps ← pieces s.toList
  if isQuery ps then none else readPieces ps

/-! ### Values -/

/-- The truth values of SQL; none is unknown. -/
abbrev Truth := Option Bool

namespace Truth

def not : Truth → Truth := Option.map Bool.not

def and : Truth → Truth → Truth
  | some false, _ => some false
  | _, some false => some false
  | some true, some true => some true
  | _, _ => none

def or : Truth → Truth → Truth
  | some true, _ => some true
  | _, some true => some true
  | some false, some false => some false
  | _, _ => none

@[simp] theorem true_and (v : Truth) : and (some true) v = v := by
  rcases v with _ | _ | _ <;> rfl

@[simp] theorem false_and (v : Truth) : and (some false) v = some false := by
  rcases v with _ | _ | _ <;> rfl

@[simp] theorem false_or (v : Truth) : or (some false) v = v := by
  rcases v with _ | _ | _ <;> rfl

end Truth

/-- What the atoms of conditions mean on rows. -/
structure Meaning (Row : Type) where
  atom : List Token → Row → Truth

/-- The value of a condition on a row. -/
def Condition.eval {Row : Type} (m : Meaning Row) (row : Row) : Condition → Truth
  | .atom ts => m.atom ts row
  | .paren c => c.eval m row
  | .not c => (c.eval m row).not
  | .and c d => (c.eval m row).and (d.eval m row)
  | .or c d => (c.eval m row).or (d.eval m row)

/-! ### Reading one after the other -/

/-- **Tokens are read one after the other.** -/
theorem lex_append (s : Lexing) (xs ys : List Char) :
    lex s (xs ++ ys) =
      (lex s xs).bind fun r => (lex r.2 ys).map fun q => (r.1 ++ q.1, q.2) := by
  induction xs generalizing s with
  | nil =>
    show lex s ys = (lex s ys).map fun q => ([] ++ q.1, q.2)
    cases lex s ys <;> rfl
  | cons c xs ih =>
    rw [List.cons_append, lex, lex]
    cases lexStep s c with
    | none => rfl
    | some r =>
      rw [Option.bind_some, Option.bind_some, ih]
      cases lex r.2 xs with
      | none => rfl
      | some q =>
        rw [Option.bind_some, Option.map_some, Option.bind_some, Option.map_map]
        refine congrArg (Option.map · (lex q.2 ys)) (funext fun w => ?_)
        simp only [Function.comp_apply, List.append_assoc]

theorem lex_append_eq_some {s between last : Lexing} {xs ys : List Char} {ts us : List Token}
    (hxs : lex s xs = some (ts, between)) (hys : lex between ys = some (us, last)) :
    lex s (xs ++ ys) = some (ts ++ us, last) := by
  rw [lex_append, hxs, Option.bind_some, hys]
  rfl

theorem tokens_eq_some {cs : List Char} {ts : List Token} : tokens cs = some ts ↔
    ∃ r last, lex .plain cs = some r ∧ lexEnd r.2 = some last ∧ ts = r.1 ++ last := by
  rw [tokens, Option.bind_eq_some_iff]
  constructor
  · intro h
    obtain ⟨r, hr, h⟩ := h
    obtain ⟨last, hlast, rfl⟩ := Option.map_eq_some_iff.1 h
    exact ⟨r, last, hr, hlast, rfl⟩
  · intro h
    obtain ⟨r, last, hr, hlast, rfl⟩ := h
    exact ⟨r, hr, by rw [hlast]; rfl⟩

/-- What has been read so far stands before what is read then. -/
theorem tokens_append {xs ys : List Char} {front ts : List Token}
    (hfront : lex .plain xs = some (front, .plain)) (h : tokens ys = some ts) :
    tokens (xs ++ ys) = some (front ++ ts) := by
  obtain ⟨r, last, hr, hlast, rfl⟩ := tokens_eq_some.1 h
  exact tokens_eq_some.2 ⟨(front ++ r.1, r.2), last, lex_append_eq_some hfront hr, hlast,
    (List.append_assoc _ _ _).symm⟩

/-- Where a text may end, a parenthesis may close. -/
theorem lexStep_closing {s : Lexing} {last : List Token} (h : lexEnd s = some last) :
    lexStep s ')' = some (last ++ [.closing], .plain) := by
  cases s with
  | plain =>
    rw [← Option.some.inj h]
    rfl
  | word cs =>
    rw [← Option.some.inj h]
    rfl
  | quote q cs =>
    rw [← Option.some.inj h]
    cases q <;> rfl
  | dash =>
    rw [← Option.some.inj h]
    rfl
  | slash =>
    rw [← Option.some.inj h]
    rfl
  | quoted q cs => cases h
  | line => cases h
  | block depth last => cases h

theorem tokens_closing {cs : List Char} {ts : List Token} (h : tokens cs = some ts) :
    tokens (cs ++ [')']) = some (ts ++ [.closing]) := by
  obtain ⟨r, last, hr, hlast, rfl⟩ := tokens_eq_some.1 h
  have hclosing : lex r.2 [')'] = some (last ++ [.closing], .plain) := by
    rw [lex, lexStep_closing hlast]
    exact congrArg (fun ts => some (ts, Lexing.plain)) (List.append_nil _)
  refine tokens_eq_some.2 ⟨(r.1 ++ (last ++ [.closing]), .plain), [], ?_, rfl, ?_⟩
  · exact lex_append_eq_some hr hclosing
  · rw [List.append_nil, List.append_assoc]

theorem tokens_parenthesized {cs : List Char} {ts : List Token} (h : tokens cs = some ts) :
    tokens (['('] ++ (cs ++ [')'])) = some ([.opening] ++ (ts ++ [.closing])) :=
  tokens_append rfl (tokens_closing h)

/-! ### Brackets -/

theorem nest_append (n : Nest) (ts us : List Token) :
    nest n (ts ++ us) = (nest n us).bind fun m => nest m ts := by
  rw [nest, List.foldr_append]
  show ts.foldr _ (nest n us) = _
  cases nest n us with
  | some m => rfl
  | none =>
    rw [Option.bind_none]
    induction ts with
    | nil => rfl
    | cons t ts ih => rw [List.foldr_cons, ih]; rfl

theorem nest_cons (n : Nest) (t : Token) (ts : List Token) :
    nest n (t :: ts) = (nest n ts).bind (nestStep t) := rfl

/-- Brackets around do not matter for what is inside. -/
theorem nestStep_frame {t : Token} {n m : Nest} (h : nestStep t n = some m)
    (outer : List (Bracket × List Piece)) :
    nestStep t (n.1, n.2 ++ outer) = some (m.1, m.2 ++ outer) := by
  obtain ⟨ps, inner⟩ := n
  unfold nestStep at h ⊢
  cases hcloses : t.closes? with
  | some b =>
    rw [hcloses] at h
    rw [← Option.some.inj h]
    rfl
  | none =>
    cases hopens : t.opens? with
    | none =>
      rw [hcloses, hopens] at h
      rw [← Option.some.inj h]
    | some b =>
      rw [hcloses, hopens] at h
      cases inner with
      | nil => cases h
      | cons first inner =>
        obtain ⟨b', qs⟩ := first
        show (if b = b' then _ else _) = _
        have h : (if b = b' then some (groupOf b ps :: qs, inner) else none) = some m := h
        split at h
        next heq =>
          rw [if_pos heq, ← Option.some.inj h]
          rfl
        next => cases h

theorem nest_frame {ts : List Token} {n m : Nest} (h : nest n ts = some m)
    (outer : List (Bracket × List Piece)) :
    nest (n.1, n.2 ++ outer) ts = some (m.1, m.2 ++ outer) := by
  induction ts generalizing m with
  | nil =>
    rw [← Option.some.inj h]
    rfl
  | cons t ts ih =>
    rw [nest_cons, Option.bind_eq_some_iff] at h
    obtain ⟨between, hbetween, hstep⟩ := h
    rw [nest_cons, ih hbetween]
    exact nestStep_frame hstep outer

theorem pieces_eq_some {cs : List Char} {ps : List Piece} : pieces cs = some ps ↔
    ∃ ts, tokens cs = some ts ∧ nest ([], []) ts = some (ps, []) := by
  rw [pieces, Option.bind_eq_bind, Option.bind_eq_some_iff]
  refine exists_congr fun ts => and_congr_right fun _ => ?_
  rw [Option.bind_eq_bind, Option.bind_eq_some_iff]
  constructor
  · intro h
    obtain ⟨n, hn, h⟩ := h
    obtain ⟨qs, outer⟩ := n
    cases outer with
    | nil =>
      rw [hn, ← Option.some.inj h]
    | cons first outer => cases h
  · intro h
    exact ⟨(ps, []), h, rfl⟩

/-- What is in parentheses is one piece. -/
theorem pieces_parenthesized {cs : List Char} {ps : List Piece} (h : pieces cs = some ps) :
    pieces (['('] ++ (cs ++ [')'])) = some [groupOf .paren ps] := by
  obtain ⟨ts, hts, hnest⟩ := pieces_eq_some.1 h
  refine pieces_eq_some.2 ⟨_, tokens_parenthesized hts, ?_⟩
  have hinside : nest ([], [(.paren, [])]) ts = some (ps, [(.paren, [])]) :=
    nest_frame hnest [(.paren, [])]
  rw [nest_append, nest_append]
  show ((nest ([], [(.paren, [])]) ts).bind _) = _
  rw [hinside]
  rfl

theorem read_eq_some {s : String} {c : Condition} : read s = some c ↔
    ∃ ps, pieces s.toList = some ps ∧ isQuery ps = false ∧ readPieces ps = some c := by
  rw [read, Option.bind_eq_bind, Option.bind_eq_some_iff]
  refine exists_congr fun ps => and_congr_right fun _ => ?_
  cases isQuery ps with
  | true => simp
  | false => simp

/-- **A text in parentheses is read as a whole.** -/
theorem read_parenthesized {s : String} {c : Condition} (h : read s = some c) :
    read ("(" ++ s ++ ")") = some (.paren c) := by
  obtain ⟨ps, hps, hquery, hc⟩ := read_eq_some.1 h
  have hchars : ("(" ++ s ++ ")").toList = ['('] ++ (s.toList ++ [')']) := by
    simp
  refine read_eq_some.2 ⟨[groupOf .paren ps], ?_, rfl, ?_⟩
  · rw [hchars]
    exact pieces_parenthesized hps
  · have hgroup : groupOf .paren ps = .group .paren (ps.flatMap Piece.tokens) (some c) := by
      rw [groupOf, hquery, hc]
      rfl
    rw [hgroup]
    rfl

example : read ("(" ++ "a OR NOT b AND c" ++ ")") = some (.paren (.or (.atom [.word ['a']])
    (.and (.not (.atom [.word ['b']])) (.atom [.word ['c']])))) := by
  decide +kernel

/-! ### Alternatives -/

namespace Condition

/-- The alternatives of a condition after the first one, if there are any. -/
def later? : Condition → Option Condition
  | .or _ d => some d
  | _ => none

/-- A condition whose first alternative is restricted by another condition. -/
def scopedBy (c scope : Condition) : Condition :=
  match c with
  | .or c d => .or (.and scope c) d
  | c => .and scope c

/-- A condition without other alternatives is restricted as a whole. -/
theorem scopedBy_of_later? {scope c : Condition} (h : c.later? = none) :
    c.scopedBy scope = .and scope c := by
  cases c with
  | or c d => cases h
  | _ => rfl

/-- Where the restriction is met, a restricted condition has its own value. -/
theorem eval_scopedBy_true {Row : Type} {m : Meaning Row} {row : Row} {scope c : Condition}
    (h : scope.eval m row = some true) : (c.scopedBy scope).eval m row = c.eval m row := by
  cases c with
  | or c d => simp only [scopedBy, eval, h, Truth.true_and]
  | _ => simp only [scopedBy, eval, h, Truth.true_and]

/-- **Where the restriction is not met, the other alternatives decide.** -/
theorem eval_scopedBy_false {Row : Type} {m : Meaning Row} {row : Row} {scope c : Condition}
    (h : scope.eval m row = some false) :
    (c.scopedBy scope).eval m row = (c.later?.map fun d => d.eval m row).getD (some false) := by
  cases c with
  | or c d => simp only [scopedBy, later?, eval, h, Truth.false_and, Truth.false_or, Option.map_some,
      Option.getD_some]
  | _ => simp only [scopedBy, later?, eval, h, Truth.false_and, Option.map_none, Option.getD_none]

end Condition

theorem readConjunction_eq_some {ps : List Piece} {c : Condition} :
    readConjunction ps = some c ↔ ∃ first others, readOperand (splitAnd false ps).1 = some first ∧
      (splitAnd false ps).2.mapM readOperand = some others ∧ chain .and first others = c := by
  simp only [readConjunction, Option.bind_eq_bind, Option.bind_eq_some_iff, Option.pure_def,
    Option.some.injEq, exists_and_left]

theorem readPieces_eq_some {ps : List Piece} {c : Condition} :
    readPieces ps = some c ↔ ∃ first others, readConjunction (splitOr ps).1 = some first ∧
      (splitOr ps).2.mapM readConjunction = some others ∧ chain .or first others = c := by
  simp only [readPieces, Option.bind_eq_bind, Option.bind_eq_some_iff, Option.pure_def,
    Option.some.injEq, exists_and_left]

theorem later?_readOperand {ps : List Piece} {c : Condition} (h : readOperand ps = some c) :
    c.later? = none := by
  unfold readOperand at h
  split at h
  next => cases h
  next =>
    obtain ⟨d, -, rfl⟩ := Option.map_eq_some_iff.1 h
    rfl
  next =>
    split at h
    next =>
      obtain ⟨d, -, rfl⟩ := Option.map_eq_some_iff.1 h
      rfl
    next =>
      rw [← Option.some.inj h]
      rfl

/-- A conjunction has no other alternatives. -/
theorem later?_readConjunction {ps : List Piece} {c : Condition}
    (h : readConjunction ps = some c) : c.later? = none := by
  obtain ⟨first, others, hfirst, -, rfl⟩ := readConjunction_eq_some.1 h
  cases others with
  | nil => exact later?_readOperand hfirst
  | cons d others => rfl

end SchemaCompiler.Sql
