import SchemaCompiler.Proofs.Sql.ClosedText
import SchemaCompiler.Proofs.Sql.LiteralList

/-!
# What the definition of a column says

The definition of a column is its name, its type and up to eight clauses in a fixed order, each of
which may be missing.  It is read back clause by clause: what stands in a clause is one word, one of
a few keywords, or an expression with a fixed end.

* `ColumnText` — what a definition says, and `ColumnText.chars`, the definition;
* `readColumn` — the reader;
* `readColumn_chars` — **the definition of a column is read back**;
* `readColumn_key` — the definition of a primary key is not that of a column.
-/

namespace SchemaCompiler.Sql

open Text (Reader Begins written)

/-! ### Definitions -/

/-- A text without spaces and line ends. -/
def IsWord (s : String) : Prop := ' ' ∉ s.toList ∧ '\n' ∉ s.toList

instance (s : String) : Decidable (IsWord s) := inferInstanceAs (Decidable (_ ∧ _))

/-- What the definition of a column says. -/
structure ColumnText where
  name : String
  type : String
  primaryKey : Bool
  notNull : Bool
  unique : Bool
  default : Option String
  references : Option String
  onDelete : Option ReferentialAction
  onUpdate : Option ReferentialAction
  generated : Option String
  deriving DecidableEq, Repr

/-- A clause without content, if it is there. -/
def flag (mark : String) (b : Bool) : List Char :=
  written mark (fun _ => "") (if b then some () else none)

/-- The marks of the clauses, in their order. -/
def clauseMarks : List String :=
  [" PRIMARY KEY", " NOT NULL", " UNIQUE", " DEFAULT ", " REFERENCES ", " ON DELETE ",
    " ON UPDATE ", " GENERATED ALWAYS AS ("]

namespace ColumnText

/-- The clauses of a definition. -/
def clauses (c : ColumnText) : List Char :=
  flag " PRIMARY KEY" c.primaryKey ++ (flag " NOT NULL" c.notNull ++ (flag " UNIQUE" c.unique ++
    (written " DEFAULT " id c.default ++ (written " REFERENCES " id c.references ++
      (written " ON DELETE " spacedKeyword c.onDelete ++
        (written " ON UPDATE " spacedKeyword c.onUpdate ++
          (written " GENERATED ALWAYS AS (" (· ++ ") STORED") c.generated ++ [])))))))

/-- The definition. -/
def chars (c : ColumnText) : List Char :=
  c.name.toList ++ (" ".toList ++ (c.type.toList ++ c.clauses))

theorem chars_ne_nil (c : ColumnText) : c.chars ≠ [] := by
  have hspace : " ".toList ≠ [] := by decide
  rw [chars]
  exact List.append_ne_nil_of_right_ne_nil _ (List.append_ne_nil_of_left_ne_nil hspace _)

/-- Parts that can be told from the format. -/
structure Legible (c : ColumnText) : Prop where
  name : IsWord c.name
  type : IsWord c.type
  default : ∀ d, c.default = some d → IsWord d
  references : ∀ r, c.references = some r → IsWord r
  generated : ∀ g, c.generated = some g → '\n' ∉ g.toList

end ColumnText

/-! ### The reader -/

/-- The words for referential actions. -/
def referentialWords : List (String × ReferentialAction) :=
  (Vocabulary.members (α := ReferentialAction)).map fun a => (spacedKeyword a, a)

theorem mem_referentialWords (a : ReferentialAction) : (spacedKeyword a, a) ∈ referentialWords := by
  cases a <;> decide

theorem referentialWords_apart :
    ∀ v ∈ referentialWords, ∀ w ∈ referentialWords, v.1.toList <+: w.1.toList → v = w := by
  decide +kernel

/-- Whether a clause without content is there. -/
def readFlag (mark : String) (cs : List Char) : Bool × List Char :=
  let (found, cs) := Reader.optional (Reader.after mark Reader.nothing) cs
  (found.isSome, cs)

/-- What a definition says, if it is that of a column. -/
def readColumn (cs : List Char) : Option ColumnText := do
  let (name, cs) ← Reader.upTo ' ' cs
  let (type, cs) ← Reader.after " " (Reader.upTo ' ') cs
  let (primaryKey, cs) := readFlag " PRIMARY KEY" cs
  let (notNull, cs) := readFlag " NOT NULL" cs
  let (unique, cs) := readFlag " UNIQUE" cs
  let (default, cs) := Reader.optional (Reader.after " DEFAULT " (Reader.upTo ' ')) cs
  let (references, cs) := Reader.optional (Reader.after " REFERENCES " (Reader.upTo ' ')) cs
  let (onDelete, cs) :=
    Reader.optional (Reader.after " ON DELETE " (Reader.oneOf referentialWords)) cs
  let (onUpdate, cs) :=
    Reader.optional (Reader.after " ON UPDATE " (Reader.oneOf referentialWords)) cs
  let (generated, cs) :=
    Reader.optional (Reader.after " GENERATED ALWAYS AS (" (Reader.enclosed ") STORED")) cs
  if cs = [] then
    some { name, type, primaryKey, notNull, unique, default, references, onDelete, onUpdate,
           generated }
  else none

section Clauses

variable {mark : String} {marks : List String} {rest : List Char}

theorem readFlag_flag (b : Bool) (h : Begins marks rest) (hapart : Text.isApart mark marks = true) :
    readFlag mark (flag mark b ++ rest) = (b, rest) := by
  rw [readFlag, flag, Text.optional_written ?nothing h hapart]
  case nothing => exact fun _ _ => rfl
  cases b <;> rfl

theorem begins_flag (h : Begins marks rest) (b : Bool) :
    Begins (mark :: marks) (flag mark b ++ rest) := h.written _ _

/-- A word is read up to the next clause. -/
theorem upTo_word {w : String} (hw : IsWord w) (h : Begins marks rest)
    (hmarks : (marks.all fun m => m.toList.head? == some ' ') = true) :
    Reader.upTo ' ' (w.toList ++ rest) = some (w, rest) :=
  Text.upTo_append hw.1 (h.head? hmarks)

theorem oneOf_spacedKeyword (a : ReferentialAction) (rest : List Char) :
    Reader.oneOf referentialWords ((spacedKeyword a).toList ++ rest) = some (a, rest) :=
  Text.oneOf_append referentialWords_apart (mem_referentialWords a) rest

end Clauses

/-- **The definition of a column is read back.** -/
theorem readColumn_chars {c : ColumnText} (h : c.Legible) : readColumn c.chars = some c := by
  -- Each clause ends where nothing or one of the later clauses starts.
  have hend : Begins [] [] := Or.inl rfl
  have hgenerated : Begins (clauseMarks.drop 7) _ := hend.written (· ++ ") STORED") c.generated
  have honUpdate : Begins (clauseMarks.drop 6) _ := hgenerated.written spacedKeyword c.onUpdate
  have honDelete : Begins (clauseMarks.drop 5) _ := honUpdate.written spacedKeyword c.onDelete
  have hreferences : Begins (clauseMarks.drop 4) _ := honDelete.written id c.references
  have hdefault : Begins (clauseMarks.drop 3) _ := hreferences.written id c.default
  have hunique : Begins (clauseMarks.drop 2) _ := begins_flag hdefault c.unique
  have hnotNull : Begins (clauseMarks.drop 1) _ := begins_flag hunique c.notNull
  have hprimaryKey : Begins clauseMarks c.clauses := begins_flag hnotNull c.primaryKey
  rw [readColumn, ColumnText.chars, Text.upTo_append h.name.1 (Text.head?_mark rfl _)]
  simp only [Text.after_append, upTo_word h.type hprimaryKey (by decide), Option.bind_eq_bind,
    Option.bind_some]
  rw [ColumnText.clauses, readFlag_flag _ hnotNull (by decide)]
  dsimp only
  rw [readFlag_flag _ hunique (by decide)]
  dsimp only
  rw [readFlag_flag _ hdefault (by decide)]
  dsimp only
  rw [Text.optional_written ?default hreferences (by decide)]
  case default => exact fun d hd => upTo_word (h.default d hd) hreferences (by decide)
  dsimp only
  rw [Text.optional_written ?references honDelete (by decide)]
  case references => exact fun r hr => upTo_word (h.references r hr) honDelete (by decide)
  dsimp only
  rw [Text.optional_written ?onDelete honUpdate (by decide)]
  case onDelete => exact fun a _ => oneOf_spacedKeyword a _
  dsimp only
  rw [Text.optional_written ?onUpdate hgenerated (by decide)]
  case onUpdate => exact fun a _ => oneOf_spacedKeyword a _
  dsimp only
  rw [Text.optional_written ?generated hend (by decide)]
  case generated =>
    intro g _
    rw [List.append_nil, String.toList_append, Text.enclosed_append]
  exact if_pos rfl

/-- The definition of a column is in one line. -/
theorem ColumnText.Legible.line {c : ColumnText} (h : c.Legible) : '\n' ∉ c.chars := by
  have hkeyword : ∀ a : ReferentialAction, '\n' ∉ (spacedKeyword a).toList := by
    rintro (_ | _ | _ | _) <;> decide +kernel
  have hflag {mark : String} (hmark : '\n' ∉ mark.toList) (b : Bool) : '\n' ∉ flag mark b :=
    Text.notMem_written hmark fun _ _ => List.not_mem_nil
  have hgenerated : ∀ g, c.generated = some g → '\n' ∉ (g ++ ") STORED").toList := by
    intro g hg
    exact Text.notMem_append (h.generated g hg) (by decide)
  have hclauses : '\n' ∉ c.clauses := by
    simp only [ColumnText.clauses, List.mem_append, not_or]
    exact ⟨hflag (by decide) _, hflag (by decide) _, hflag (by decide) _,
      Text.notMem_written (by decide) fun d hd => (h.default d hd).2,
      Text.notMem_written (by decide) fun r hr => (h.references r hr).2,
      Text.notMem_written (by decide) fun a _ => hkeyword a,
      Text.notMem_written (by decide) fun a _ => hkeyword a,
      Text.notMem_written (by decide) hgenerated, List.not_mem_nil⟩
  rw [ColumnText.chars]
  exact List.not_mem_append h.name.2
    (List.not_mem_append (by decide) (List.not_mem_append h.type.2 hclauses))

/-- **The definition of a primary key is not that of a column.** -/
theorem readColumn_key (inside : List Char) :
    readColumn ("PRIMARY KEY (".toList ++ inside) = none := by
  let rest := " (".toList ++ inside
  have htype : Reader.upTo ' ' ("KEY".toList ++ rest) = some ("KEY", rest) :=
    Text.upTo_append (by decide) (Text.head?_mark rfl inside)
  have hparen : Begins [" ("] rest := .of_start List.mem_cons_self (List.prefix_append _ _)
  have hnone {α : Type} (mark : String) (r : Reader α) (hmark : mark ∈ clauseMarks) :
      Reader.optional (Reader.after mark r) rest = (none, rest) := by
    have hapart : ∀ m ∈ clauseMarks, Text.isApart m [" ("] = true := by decide
    exact Text.optional_of_begins r hparen (hapart mark hmark)
  have hchars : "PRIMARY KEY (".toList ++ inside =
      "PRIMARY".toList ++ (" ".toList ++ ("KEY".toList ++ rest)) := rfl
  rw [readColumn, hchars, Text.upTo_append (by decide) (Text.head?_mark rfl _)]
  simp (disch := decide) only [Text.after_append, htype, readFlag, hnone, Option.bind_eq_bind,
    Option.bind_some]
  exact if_neg (List.cons_ne_nil _ _)

end SchemaCompiler.Sql
