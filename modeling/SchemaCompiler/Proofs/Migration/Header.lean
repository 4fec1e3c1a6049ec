import SchemaCompiler.Proofs.Migration.Calendar
import SchemaCompiler.Proofs.Migration.Document
import SchemaCompiler.Proofs.Migration.Texts

/-!
# What the header adds to a document

A document starts with its description, its time and its tool in three comments.  Description and
tool are free texts, and a comment ends where its line does: a line end in one of them makes SQL of
what follows it.

* `visible` — what a reader sees of a text in SQL who skips its comments;
* `overflow` — what follows the first line of a free text, and `visible_comment`, where it is read;
* `IsCommentBlock` — three lines of comments and an empty one;
* `isCommentBlock_preamble_iff` — **a header is such a block if its free texts are in one line**;
* `document_preamble` — what is seen of a document, for all headers;
* `document_injected` — a description with a statement in it.
-/

namespace SchemaCompiler

namespace Sql

/-- What is seen of a text when its comments are skipped.  A comment goes on to the end of its line,
and there is none inside a literal or a body. -/
def visible : Mode → List Char → List Char
  | _, [] => []
  | .plain, '\'' :: cs => '\'' :: visible .literal cs
  | .plain, '$' :: '$' :: cs => '$' :: '$' :: visible .body cs
  | .plain, '-' :: '-' :: cs => visible .comment cs
  | .plain, c :: cs => c :: visible .plain cs
  | .literal, '\'' :: cs => '\'' :: visible .plain cs
  | .literal, c :: cs => c :: visible .literal cs
  | .body, '$' :: '$' :: cs => '$' :: '$' :: visible .plain cs
  | .body, c :: cs => c :: visible .body cs
  | .comment, '\n' :: cs => '\n' :: visible .plain cs
  | .comment, '\r' :: cs => '\r' :: visible .plain cs
  | .comment, _ :: cs => visible .comment cs

/-- Whether a character ends a comment. -/
def isLineEnd (c : Char) : Bool := c == '\n' || c == '\r'

/-- What follows the first line of a text, from the end of this line on. -/
def overflow (cs : List Char) : List Char := cs.dropWhile fun c => !isLineEnd c

/-- **After a comment, all that follows its line is read.** -/
theorem visible_comment (cs : List Char) : visible .comment cs = visible .plain (overflow cs) := by
  induction cs with
  | nil => rfl
  | cons c cs ih =>
    by_cases hfeed : c = '\n'
    · rw [hfeed]
      rfl
    · by_cases hreturn : c = '\r'
      · rw [hreturn]
        rfl
      · have hend : (!isLineEnd c) = true := by simp [isLineEnd, hfeed, hreturn]
        have hskip : visible .comment (c :: cs) = visible .comment cs := by
          rw [visible]
          · exact hfeed
          · exact hreturn
        have hover : overflow (c :: cs) = overflow cs := List.dropWhile_cons_of_pos hend
        rw [hskip, ih, hover]

/-- A comment with a free text in it. -/
theorem visible_comment_line (text rest : List Char) :
    visible .plain ('-' :: '-' :: (text ++ '\n' :: rest)) =
      visible .plain (overflow text ++ '\n' :: rest) := by
  have hover : overflow (text ++ '\n' :: rest) = overflow text ++ '\n' :: rest := by
    rw [overflow, List.dropWhile_append]
    split
    next hempty =>
      rw [overflow, List.isEmpty_iff.1 hempty]
      rfl
    next => rfl
  rw [visible, visible_comment, hover]

end Sql

open Sql

theorem oneLine_iff {s : String} : OneLine s ↔ ∀ c ∈ s.toList, isLineEnd c = false := by
  simp [OneLine, isLineEnd]

theorem oneLine_iff_countP {s : String} : OneLine s ↔ s.toList.countP isLineEnd = 0 := by
  simp [oneLine_iff, List.countP_eq_zero]

/-- What follows the first line is not changed by what stands before the text in this line. -/
theorem OneLine.overflow_append {front : String} (h : OneLine front) (s : String) :
    overflow (front ++ s).toList = overflow s.toList := by
  rw [String.toList_append, overflow, List.dropWhile_append_of_pos]
  · rfl
  · intro c hc
    rw [oneLine_iff.1 h c hc]
    rfl

theorem OneLine.overflow_eq {s : String} (h : OneLine s) : overflow s.toList = [] := by
  have happend := h.overflow_append ""
  rwa [String.append_empty] at happend

namespace Migration

/-- What stands before the statements of a document. -/
def preamble (h : Header) : String := h.text ++ "\n"

/-- The statements of a document. -/
def statementsText (statements : List String) : String :=
  Text.joinWith "\n\n" statements ++ "\n"

/-- Three lines of comments and an empty line. -/
def IsCommentBlock (s : String) : Prop := ∃ a b c : String, OneLine a ∧ OneLine b ∧ OneLine c ∧
  s = "--" ++ a ++ "\n--" ++ b ++ "\n--" ++ c ++ "\n\n"

/-- The preamble, comment by comment. -/
theorem preamble_eq (h : Header) : preamble h = "--" ++ (" " ++ h.description.toText) ++ "\n--" ++
    (" Created: " ++ h.created.isoText) ++ "\n--" ++ (" Generated by: " ++ h.toolName.toText) ++
      "\n\n" := by
  rw [← String.toList_inj]
  simp [preamble, Header.text]

/-- **A header is a block of comments if its free texts are in one line**, and only then. -/
theorem isCommentBlock_preamble_iff (h : Header) : IsCommentBlock (preamble h) ↔
    OneLine h.description.toText ∧ OneLine h.toolName.toText := by
  have hiso : OneLine h.created.isoText := oneLine_isoText h.created
  constructor
  · -- The block has four line ends, and so many are already in the fixed texts of the preamble.
    rintro ⟨a, b, c, ha, hb, hc, heq⟩
    rw [oneLine_iff_countP] at ha hb hc hiso
    have hcount := congrArg (fun s => s.toList.countP isLineEnd) heq
    simp only [preamble_eq, String.toList_append, List.countP_append, ha, hb, hc, hiso] at hcount
    have hends : "\n--".toList.countP isLineEnd = 1 ∧ "\n\n".toList.countP isLineEnd = 2 ∧
        "--".toList.countP isLineEnd = 0 ∧ " ".toList.countP isLineEnd = 0 ∧
        " Created: ".toList.countP isLineEnd = 0 ∧
        " Generated by: ".toList.countP isLineEnd = 0 := by decide
    rw [oneLine_iff_countP, oneLine_iff_countP]
    omega
  · rintro ⟨hdescription, htool⟩
    exact ⟨_, _, _, OneLine.append (.of_chars rfl) hdescription,
      OneLine.append (.of_chars rfl) hiso, OneLine.append (.of_chars rfl) htool, preamble_eq h⟩

/-- What is seen of a preamble: what follows the first line of the description, and after that what
follows the first line of the tool. -/
theorem visible_preamble (h : Header) (rest : List Char) :
    visible .plain ((preamble h).toList ++ rest) =
      visible .plain (overflow h.description.toText.toList ++ '\n' :: '-' :: '-' ::
        ((" Created: " ++ h.created.isoText).toList ++ '\n' :: '-' :: '-' ::
          ((" Generated by: " ++ h.toolName.toText).toList ++ '\n' :: '\n' :: rest))) := by
  have hchars : (preamble h).toList ++ rest = '-' :: '-' :: ((" " ++ h.description.toText).toList ++
      '\n' :: '-' :: '-' :: ((" Created: " ++ h.created.isoText).toList ++ '\n' :: '-' :: '-' ::
        ((" Generated by: " ++ h.toolName.toText).toList ++ '\n' :: '\n' :: rest))) := by
    simp [preamble_eq]
  have hspace : OneLine " " := .of_chars rfl
  rw [hchars, visible_comment_line, hspace.overflow_append]

/-- After a description in one line, the time adds nothing. -/
theorem visible_preamble_of_oneLine {h : Header} (hdescription : OneLine h.description.toText)
    (rest : List Char) : visible .plain ((preamble h).toList ++ rest) =
      "\n\n".toList ++
        visible .plain (overflow h.toolName.toText.toList ++ '\n' :: '\n' :: rest) := by
  have htime : OneLine (" Created: " ++ h.created.isoText) :=
    .append (.of_chars rfl) (oneLine_isoText h.created)
  have hby : OneLine " Generated by: " := .of_chars rfl
  have hend (cs : List Char) : visible .plain ('\n' :: cs) = '\n' :: visible .plain cs := rfl
  rw [visible_preamble, hdescription.overflow_eq, List.nil_append, hend, visible_comment_line,
    htime.overflow_eq, List.nil_append, hend, visible_comment_line, hby.overflow_append]
  rfl

/-- **What the header adds to a document.**  A document of any statements is made if its time can be
told in UTC, and has a preamble before them.

The preamble is three lines of comments and an empty line if description and tool are texts in one
line, and only then.  In this case a reader who skips comments sees the line ends of the preamble
and then the statements.  In general all that follows the first line of the description is read as
SQL, and if that is nothing, all that follows the first line of the tool. -/
theorem document_preamble (h : Header) (statements : List String) :
    (Succeeds (document h (.list (statements.map .text))) ↔ Succeeds h.created.toUtc) ∧
    ∀ created, h.created.toUtc = .ok created →
      document h (.list (statements.map .text)) =
        .ok (preamble { h with created } ++ statementsText statements) ∧
      (IsCommentBlock (preamble { h with created }) ↔
        OneLine h.description.toText ∧ OneLine h.toolName.toText) ∧
      (OneLine h.description.toText → OneLine h.toolName.toText →
        visible .plain (preamble { h with created } ++ statementsText statements).toList =
          "\n\n\n\n".toList ++ visible .plain (statementsText statements).toList) ∧
      (OneLine h.description.toText →
        visible .plain (preamble { h with created } ++ statementsText statements).toList =
          "\n\n".toList ++ visible .plain (overflow h.toolName.toText.toList ++
            ("\n\n" ++ statementsText statements).toList)) ∧
      visible .plain (preamble { h with created } ++ statementsText statements).toList =
        visible .plain (overflow h.description.toText.toList ++ ("\n-- Created: " ++
          created.isoText ++ "\n-- Generated by: " ++ h.toolName.toText ++ "\n\n" ++
            statementsText statements).toList) := by
  constructor
  · constructor
    · rintro ⟨text, htext⟩
      obtain ⟨created, hcreated, -⟩ := bind_eq_ok.1 htext
      exact ⟨created, hcreated⟩
    · rintro ⟨created, hcreated⟩
      exact ⟨_, document_texts hcreated statements⟩
  intro created hcreated
  have htext : document h (.list (statements.map .text)) =
      .ok (preamble { h with created } ++ statementsText statements) := by
    rw [document_texts hcreated, documentText, preamble, statementsText]
    simp only [String.append_assoc]
  have htool (hdescription : OneLine h.description.toText) :=
    visible_preamble_of_oneLine (h := { h with created }) hdescription
      (statementsText statements).toList
  refine ⟨htext, isCommentBlock_preamble_iff _, fun hdescription honeLine => ?_,
    fun hdescription => ?_, ?_⟩
  · rw [String.toList_append, htool hdescription, honeLine.overflow_eq]
    rfl
  · rw [String.toList_append, htool hdescription, String.toList_append]
    rfl
  · rw [String.toList_append, visible_preamble]
    simp [String.toList_append]

/-- A header with marks of SQL in its texts. -/
def quotedHeader : Header where
  description := .text "It's -- a start; $$"
  created := ⟨2024, 5, 1, 14, 30, 0, 0, .fixed 7200000000⟩
  toolName := .text "Tenjin's"

/-- It adds nothing to a document but line ends. -/
theorem document_quotedHeader : ∃ text,
    document quotedHeader (.list [.text "SELECT '--';"]) = .ok text ∧
    (∃ before, text = before ++ "SELECT '--';\n" ∧ IsCommentBlock before) ∧
    visible .plain text.toList = "\n\n\n\nSELECT '--';\n".toList := by
  obtain ⟨utc, hutc⟩ := Time.exists_toUtc (t := quotedHeader.created) ⟨_, rfl⟩ (by decide)
    (by decide)
  have hdescription : OneLine quotedHeader.description.toText := .of_chars rfl
  have htool : OneLine quotedHeader.toolName.toText := .of_chars rfl
  obtain ⟨htext, hblock, hvisible, -⟩ :=
    (document_preamble quotedHeader ["SELECT '--';"]).2 _ hutc
  refine ⟨_, htext, ⟨_, rfl, hblock.2 ⟨hdescription, htool⟩⟩, ?_⟩
  rw [hvisible hdescription htool]
  decide +kernel

/-- A header with a statement after the first line of its description. -/
def injectedHeader : Header where
  description := .text "Weekly\nDROP TABLE users;"
  created := ⟨2024, 5, 1, 12, 30, 0, 0, .fixed 0⟩
  toolName := .text "Tenjin Framework"

/-- **Its statement is one of the document**: what stands before the given statement is no block of
comments, and a reader who skips comments sees both statements. -/
theorem document_injected : ∃ text, document injectedHeader (.list [.text "SELECT 1;"]) = .ok text ∧
    (∀ before, text = before ++ "SELECT 1;\n" → ¬IsCommentBlock before) ∧
    visible .plain text.toList = "\nDROP TABLE users;\n\n\n\nSELECT 1;\n".toList := by
  have htext : document injectedHeader (.list [.text "SELECT 1;"]) =
      .ok (preamble injectedHeader ++ "SELECT 1;\n") := by
    decide +kernel
  refine ⟨_, htext, fun before hbefore => ?_, by decide +kernel⟩
  have hdescription : ¬OneLine injectedHeader.description.toText := by
    rw [oneLine_iff_countP]
    decide +kernel
  rw [← (String.append_left_inj _).1 hbefore, isCommentBlock_preamble_iff]
  exact fun h => hdescription h.1

end Migration
end SchemaCompiler
