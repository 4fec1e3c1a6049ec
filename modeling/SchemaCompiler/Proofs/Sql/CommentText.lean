import SchemaCompiler.Proofs.Sql.FieldText

/-!
# What comments say

The comments on a table and its columns follow the table, each in a statement of its own.  A comment
is any text, and may look like the end of its statement and the start of the next one.  As it stands
in a literal this does no harm: the comments are read back, one object after the other.

* `CommentObject`, `commentMark` — objects with comments, and how the statement for one starts;
* `readComments` — the reader, which knows the objects;
* `readComments_commentChars` — **comments are read back**, also where some are missing.
-/

namespace SchemaCompiler.Sql

open Text (Reader Begins written)

/-- An object that may have a comment: a keyword for its kind, and its name. -/
structure CommentObject where
  kind : String
  name : String
  deriving DecidableEq

/-- How the statement for a comment starts, with the end of the line before it. -/
def commentMark (o : CommentObject) : String :=
  "\nCOMMENT ON " ++ (o.kind ++ " " ++ o.name) ++ " IS "

/-- The statements for comments, each after the end of a line. -/
def commentChars (comments : List (CommentObject × Option String)) : List Char :=
  comments.flatMap fun c => written (commentMark c.1) (fun s => textLiteral s ++ ";") c.2

/-- Takes a comment and the end of its statement. -/
def readComment : Reader String := fun cs => do
  let (text, cs) ← readLiteral cs
  let (_, cs) ← Reader.after ";" Reader.nothing cs
  some (text, cs)

/-- The comments on objects, as far as they are there. -/
def readComments : List CommentObject → List Char → List (Option String) × List Char
  | [], cs => ([], cs)
  | o :: os, cs =>
    let (comment, cs) := Reader.optional (Reader.after (commentMark o) readComment) cs
    let (comments, cs) := readComments os cs
    (comment :: comments, cs)

theorem readComment_textLiteral (s : String) (rest : List Char) :
    readComment ((textLiteral s ++ ";").toList ++ rest) = some (s, rest) := by
  have hend : (";".toList ++ rest).head? ≠ some '\'' := by
    intro hquote
    exact absurd (Text.head?_mark rfl rest _ hquote) (by decide)
  rw [readComment, String.toList_append, List.append_assoc, readLiteral_textLiteral s hend]
  simp only [Option.bind_eq_bind, Option.bind_some, Text.after_append]
  rfl

/-! ### Telling objects apart -/

/-- Texts that are cut off at the same mark start the same. -/
theorem prefix_of_mark {c : Char} {xs ys s t : List Char} (hx : c ∉ xs) (hy : c ∉ ys)
    (h : xs ++ c :: s <+: ys ++ c :: t) : xs = ys ∧ s <+: t := by
  induction xs generalizing ys with
  | nil =>
    cases ys with
    | nil => exact ⟨rfl, (List.cons_prefix_cons.1 h).2⟩
    | cons y ys =>
      rw [(List.cons_prefix_cons.1 h).1] at hy
      exact absurd List.mem_cons_self hy
  | cons x xs ih =>
    rw [List.mem_cons, not_or] at hx
    cases ys with
    | nil => exact absurd (List.cons_prefix_cons.1 h).1.symm hx.1
    | cons y ys =>
      obtain ⟨rfl, htail⟩ := List.cons_prefix_cons.1 h
      obtain ⟨rfl, hrest⟩ := ih hx.2 (fun hmem => hy (List.mem_cons_of_mem x hmem)) htail
      exact ⟨rfl, hrest⟩

/-- Objects whose kinds and names are words. -/
def CommentObject.IsPlain (o : CommentObject) : Prop := ' ' ∉ o.kind.toList ∧ ' ' ∉ o.name.toList

theorem eq_of_commentMark_start {a b : CommentObject} (ha : a.IsPlain) (hb : b.IsPlain)
    (h : (commentMark a).toList <+: (commentMark b).toList) : a = b := by
  have hchars (o : CommentObject) : (commentMark o).toList = "\nCOMMENT ON ".toList ++
      (o.kind.toList ++ ' ' :: (o.name.toList ++ ' ' :: "IS ".toList)) := by
    simp [commentMark]
  rw [hchars, hchars, List.prefix_append_right_inj] at h
  obtain ⟨hkind, hrest⟩ := prefix_of_mark ha.1 hb.1 h
  obtain ⟨hname, -⟩ := prefix_of_mark ha.2 hb.2 hrest
  rw [String.toList_inj] at hkind hname
  cases a
  cases b
  rw [CommentObject.mk.injEq]
  exact ⟨hkind, hname⟩

theorem isApart_commentMark {o : CommentObject} (ho : o.IsPlain) {others : List CommentObject}
    (hothers : ∀ a ∈ others, a.IsPlain) (hnew : o ∉ others) :
    Text.isApart (commentMark o) (others.map commentMark) = true := by
  have hne : commentMark o ≠ "" := append_ne_empty (append_ne_empty (by decide) _) _
  rw [Text.isApart, Bool.and_eq_true, bne_iff_ne, List.all_eq_true]
  refine ⟨hne, List.forall_mem_map.2 fun a ha => ?_⟩
  have hdiffer : a ≠ o := fun heq => hnew (heq ▸ ha)
  simp only [Bool.and_eq_true, Bool.not_eq_true', ← Bool.not_eq_true, List.isPrefixOf_iff_prefix]
  exact ⟨fun h => hdiffer (eq_of_commentMark_start (hothers a ha) ho h),
    fun h => hdiffer (eq_of_commentMark_start ho (hothers a ha) h).symm⟩

/-! ### Reading comments -/

theorem begins_commentChars (comments : List (CommentObject × Option String)) :
    Begins ((comments.map Prod.fst).map commentMark) (commentChars comments) := by
  induction comments with
  | nil => exact Or.inl rfl
  | cons c comments ih => exact ih.written _ c.2

/-- Comments start in a line of their own. -/
theorem head?_commentChars (comments : List (CommentObject × Option String)) :
    ∀ c, (commentChars comments).head? = some c → c = '\n' := by
  refine (begins_commentChars comments).head? ?_
  rw [List.all_map, List.all_eq_true]
  intro o _
  simp [commentMark]

/-- **Comments are read back**, also where some are missing. -/
theorem readComments_commentChars {comments : List (CommentObject × Option String)}
    (hplain : ∀ o ∈ comments.map Prod.fst, o.IsPlain) (hnodup : (comments.map Prod.fst).Nodup) :
    readComments (comments.map Prod.fst) (commentChars comments) = (comments.map Prod.snd, []) := by
  induction comments with
  | nil => rfl
  | cons c comments ih =>
    rw [List.map_cons, List.forall_mem_cons] at hplain
    rw [List.map_cons, List.nodup_cons] at hnodup
    have hapart := isApart_commentMark hplain.1 hplain.2 hnodup.1
    have hread : Reader.optional (Reader.after (commentMark c.1) readComment)
        (commentChars (c :: comments)) = (c.2, commentChars comments) :=
      Text.optional_written (fun s _ => readComment_textLiteral s _)
        (begins_commentChars comments) hapart
    rw [List.map_cons, readComments, hread]
    dsimp only
    rw [ih hplain.2 hnodup.2]
    rfl

end SchemaCompiler.Sql
