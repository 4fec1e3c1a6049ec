import SchemaCompiler.Proofs.Schema.Acceptance
import SchemaCompiler.Proofs.Sql.CommentText
import SchemaCompiler.Proofs.Sql.PrimaryKey

/-!
# What the statements for a table say

The statements for a table are one line for each column, a line for a primary key of several
columns, and a comment for the table and for each column that has one.  The primary key is the only
part that moves: read back, it belongs to its columns again.

* `readDefinitions`, `readTable` — the reader, which works on lines up to the end of the table;
* `Table.content` — what a table says, and `Table.Legible`, tables that can be read back;
* `readTable_createTable` — **the statements for a table are read back**;
* `agrees_of_createTable` — **tables with the same statements agree**;
* `createTable_emptyExpression` — the exception, an expression that is empty.
-/

namespace SchemaCompiler

open Text (Reader splitAt withCommas withoutCommas joinWith)

namespace Sql

/-! ### The reader -/

/-- What the statements for a table say: its columns, and the comments on the table and on each of
them. -/
structure TableText where
  name : String
  columns : List ColumnText
  comments : List (Option String)
  deriving DecidableEq, Repr

/-- The columns that the definition of a primary key names. -/
def readKey (definition : List Char) : Option (List String) := do
  let (inside, _) ← Reader.after "PRIMARY KEY (" (Reader.enclosed ")") definition
  some ((withoutCommas (splitAt ' ' inside.toList)).map String.ofList)

/-- Columns, and the names of those in a primary key that is defined after them. -/
def readDefinitions : List (List Char) → Option (List ColumnText × List String)
  | [] => some ([], [])
  | definition :: rest =>
    match readColumn definition with
    | some c => (readDefinitions rest).map fun r => (c :: r.1, r.2)
    | none => if rest = [] then (readKey definition).map fun key => ([], key) else none

/-- What the lines of a table define: each is indented, and all but the last one end in a comma.  A
table without columns has an empty line. -/
def readLines (lines : List (List Char)) : Option (List ColumnText × List String) :=
  let definitions := (withoutCommas lines).map (List.drop 2)
  if definitions = [[]] then some ([], []) else readDefinitions definitions

/-- The last line of a table. -/
def closing : List Char := [')', ';']

/-- The objects that the statements for a table may comment on. -/
def commentObjects (table : String) (columns : List String) : List CommentObject :=
  ⟨"TABLE", table⟩ :: columns.map fun c => ⟨"COLUMN", table ++ "." ++ c⟩

/-- What the statements for a table say. -/
def readTable (text : List Char) : Option TableText :=
  match splitAt '\n' text with
  | [] => none
  | heading :: lines =>
    match lines.dropWhile (· ≠ closing) with
    | [] => none
    | _ :: rest => do
      let (name, _) ← Reader.after "CREATE TABLE " (Reader.enclosed " (") heading
      let (columns, key) ← readLines (lines.takeWhile (· ≠ closing))
      match readComments (commentObjects name (columns.map ColumnText.name))
          (rest.flatMap ('\n' :: ·)) with
      | (comments, []) =>
        some { name, comments, columns := columns.map fun c =>
                 { c with primaryKey := c.primaryKey || key.contains c.name } }
      | _ => none

/-! ### Definitions -/

theorem readDefinitions_chars {columns : List ColumnText} (h : ∀ c ∈ columns, c.Legible)
    {rest : List (List Char)} {key : List String} (hrest : readDefinitions rest = some ([], key)) :
    readDefinitions (columns.map ColumnText.chars ++ rest) = some (columns, key) := by
  induction columns with
  | nil => exact hrest
  | cons c columns ih =>
    rw [List.forall_mem_cons] at h
    rw [List.map_cons, List.cons_append, readDefinitions, readColumn_chars h.1]
    dsimp only
    rw [ih h.2]
    rfl

/-- The names in a primary key are read back. -/
theorem readKey_names {names : List String} (hne : names ≠ []) (h : ∀ n ∈ names, ' ' ∉ n.toList) :
    readKey ("PRIMARY KEY (" ++ joinWith ", " names ++ ")").toList = some names := by
  have hsplit : splitAt ' ' (joinWith ", " names).toList =
      withCommas (names.map String.toList) := by
    cases names with
    | nil => exact absurd rfl hne
    | cons s names => exact Text.splitAt_joinWith (by decide) List.not_mem_nil s h
  have hchars : (names.map String.toList).map String.ofList = names := by
    rw [List.map_map]
    simp
  rw [readKey, String.toList_append, String.toList_append, List.append_assoc, Text.after_append,
    Text.enclosed_append]
  simp only [Option.bind_eq_bind, Option.bind_some, hsplit, Text.withoutCommas_withCommas, hchars]

/-! ### Lines -/

/-- The lines of a table, from the first definition to the last one. -/
def bodyChars (body : List String) : List Char := "  ".toList ++ (joinWith ",\n  " body).toList

theorem splitAt_bodyChars {s : String} {body : List String}
    (h : ∀ d ∈ s :: body, '\n' ∉ d.toList) : splitAt '\n' (bodyChars (s :: body)) =
      withCommas ((s :: body).map fun d => "  ".toList ++ d.toList) :=
  Text.splitAt_joinWith (by decide) (by decide) s h

/-- No definition is taken for the end of the table. -/
theorem closing_notMem_bodyChars {body : List String} (h : ∀ d ∈ body, '\n' ∉ d.toList) :
    closing ∉ splitAt '\n' (bodyChars body) := by
  cases body with
  | nil => decide
  | cons s body =>
    rw [splitAt_bodyChars h]
    intro hclosing
    obtain ⟨line, hline, hprefix⟩ := Text.mem_withCommas hclosing
    obtain ⟨d, -, rfl⟩ := List.mem_map.1 hline
    exact absurd (List.cons_prefix_cons.1 hprefix).1 (by decide)

theorem readLines_bodyChars {body : List String} (h : ∀ d ∈ body, '\n' ∉ d.toList)
    (hne : ∀ d ∈ body, d ≠ "") :
    readLines (splitAt '\n' (bodyChars body)) = readDefinitions (body.map String.toList) := by
  cases body with
  | nil => rfl
  | cons s body =>
    have hdefinitions : (withoutCommas (splitAt '\n' (bodyChars (s :: body)))).map (List.drop 2) =
        (s :: body).map String.toList := by
      rw [splitAt_bodyChars h, Text.withoutCommas_withCommas, List.map_map]
      rfl
    have hfirst : (s :: body).map String.toList ≠ [[]] := by
      intro heq
      rw [List.map_cons, List.cons.injEq, String.toList_eq_nil_iff] at heq
      exact hne s List.mem_cons_self heq.1
    rw [readLines, hdefinitions, if_neg hfirst]

/-- The statements for a table with these definitions and comments. -/
def tableChars (name : String) (body : List String) (comments : List Char) : List Char :=
  ("CREATE TABLE " ++ name ++ " (").toList ++ '\n' ::
    (bodyChars body ++ '\n' :: (closing ++ comments))

/-- **The statements for a table are read back** if its definitions and its comments are. -/
theorem readTable_tableChars {name : String} (hname : '\n' ∉ name.toList) {body : List String}
    (hbody : ∀ d ∈ body, '\n' ∉ d.toList ∧ d ≠ "") {columns : List ColumnText}
    {key : List String} (hcolumns : readDefinitions (body.map String.toList) = some (columns, key))
    {rest : List Char} (hrest : ∀ c, rest.head? = some c → c = '\n')
    {comments : List (Option String)} (hcomments :
      readComments (commentObjects name (columns.map ColumnText.name)) rest = (comments, [])) :
    readTable (tableChars name body rest) = some
      { name, comments, columns := columns.map fun c =>
          { c with primaryKey := c.primaryKey || key.contains c.name } } := by
  have hlines (d : String) (hd : d ∈ body) := (hbody d hd).1
  have hheading : '\n' ∉ ("CREATE TABLE " ++ name ++ " (").toList :=
    Text.notMem_append (Text.notMem_append (by decide) hname) (by decide)
  have hclosing : '\n' ∉ closing := by decide
  obtain ⟨pieces, hpieces, hmore⟩ := Text.splitAt_append_lines hclosing hrest
  have hopen : ∀ line ∈ splitAt '\n' (bodyChars body), decide (line ≠ closing) = true := by
    intro line hline
    refine decide_eq_true ?_
    rintro rfl
    exact closing_notMem_bodyChars hlines hline
  have hsplit : splitAt '\n' (tableChars name body rest) =
      ("CREATE TABLE " ++ name ++ " (").toList ::
        (splitAt '\n' (bodyChars body) ++ closing :: pieces) := by
    rw [tableChars, Text.splitAt_cons hheading, Text.splitAt_append_mark, hpieces]
  have htake : (splitAt '\n' (bodyChars body) ++ closing :: pieces).takeWhile
      (fun line => decide (line ≠ closing)) = splitAt '\n' (bodyChars body) := by
    rw [List.takeWhile_append_of_pos hopen]
    simp
  have hdrop : (splitAt '\n' (bodyChars body) ++ closing :: pieces).dropWhile
      (fun line => decide (line ≠ closing)) = closing :: pieces := by
    rw [List.dropWhile_append_of_pos hopen]
    simp
  have hread : Reader.after "CREATE TABLE " (Reader.enclosed " (")
      ("CREATE TABLE " ++ name ++ " (").toList = some (name, []) := by
    rw [String.append_assoc, String.toList_append, Text.after_append, String.toList_append,
      Text.enclosed_append]
  rw [readTable, hsplit]
  dsimp only
  rw [hdrop, htake]
  dsimp only
  rw [hread, readLines_bodyChars hlines fun d hd => (hbody d hd).2, hcolumns, hmore]
  simp only [Option.bind_eq_bind, Option.bind_some, hcomments]

end Sql

/-! ### Tables -/

open Sql

namespace Table

/-- The objects that may have a comment, with the comments they have. -/
def commentList (t : Table) : List (CommentObject × Option String) :=
  (⟨"TABLE", t.name.toText⟩, t.options.comment.present?) ::
    t.fields.map fun f =>
      (⟨"COLUMN", t.name.toText ++ "." ++ f.name.toText⟩, f.options.comment.present?)

/-- The columns of a primary key that is not marked at its column. -/
def keyNames (t : Table) : List String :=
  if 1 < t.keyFields.length then t.keyFields.map fun f => f.name.toText else []

/-- What the statements for a table have to say. -/
def content (t : Table) : TableText where
  name := t.name.toText
  columns := t.fields.map fun f => f.columnText true
  comments := t.commentList.map Prod.snd

/-- A table with parts that can be told from the format, and with no two fields of one name. -/
structure Legible (t : Table) : Prop where
  name : ∃ s, t.name = .text s ∧ IsWord s
  comment : t.options.comment.IsTextOrNull
  fields : ∀ f ∈ t.fields, f.Legible
  checked : Succeeds t.checked

/-- Two tables that agree in all that their statements can say. -/
structure Agrees (t u : Table) : Prop where
  name : t.name = u.name
  comment : t.options.comment = u.options.comment
  fields : List.Forall₂ Field.Agrees t.fields u.fields

end Table

namespace Sql

theorem flatMap_commentOn (o : CommentObject) (comment : Value) :
    ((commentOn (o.kind ++ " " ++ o.name) comment).flatMap fun s => "\n".toList ++ s.toList) =
      Text.written (commentMark o) (fun s => textLiteral s ++ ";") comment.present? := by
  unfold commentOn Value.present?
  split
  · rfl
  · simp [Text.written, commentMark, literal]

theorem flatMap_tableComments (t : Table) :
    ((tableComments t).flatMap fun s => "\n".toList ++ s.toList) = commentChars t.commentList := by
  have htable : "TABLE " ++ t.name.toText = "TABLE" ++ " " ++ t.name.toText := rfl
  have hcolumn (f : Field) : "COLUMN " ++ t.name.toText ++ "." ++ f.name.toText =
      "COLUMN" ++ " " ++ (t.name.toText ++ "." ++ f.name.toText) := by
    simp only [String.append_assoc]
    rfl
  rw [tableComments, List.flatMap_append, List.flatMap_assoc, commentChars, Table.commentList,
    List.flatMap_cons, List.flatMap_map, htable,
    flatMap_commentOn ⟨"TABLE", t.name.toText⟩ t.options.comment]
  congr 1
  refine List.flatMap_congr fun f _ => ?_
  rw [hcolumn]
  exact flatMap_commentOn ⟨"COLUMN", t.name.toText ++ "." ++ f.name.toText⟩ f.options.comment

/-- The statements for a table, from its definitions on. -/
theorem toList_createTable {t : Table} {text : String} (h : (createTable t).outcome = .ok text) :
    ∃ body, tableBody t = .ok body ∧
      text.toList = tableChars t.name.toText body (commentChars t.commentList) := by
  simp only [createTable, Traced.outcome_bind, Traced.outcome_lift, Traced.outcome_note,
    Traced.outcome_pure, ok_bind] at h
  obtain ⟨body, hbody, htext⟩ := bind_eq_ok.1 h
  refine ⟨body, hbody, ?_⟩
  rw [← Except.ok.inj htext, Text.toList_joinWith_cons, flatMap_tableComments, tableChars,
    bodyChars]
  simp [closing]

/-! ### Legible tables -/

section Legible

variable {t : Table} (h : t.Legible)

include h

theorem isText_name : ∀ f ∈ t.fields, f.name.IsText := by
  intro f hf
  obtain ⟨s, hs, -⟩ := (h.fields f hf).name
  exact ⟨s, hs⟩

theorem isWord_name : ∀ f ∈ t.fields, IsWord f.name.toText := by
  intro f hf
  obtain ⟨s, hs, hword⟩ := (h.fields f hf).name
  rw [hs]
  exact hword

/-- Fields are told apart by the texts of their names. -/
theorem nodup_names : (t.fields.map fun f => f.name.toText).Nodup := by
  have hnames := (Table.succeeds_checked (isText_name h)).1 h.checked
  have htexts : ∀ v ∈ t.fields.map Field.name, v.IsText := List.forall_mem_map.2 (isText_name h)
  have hinj := hnames.map_on fun v hv w hw => ((htexts v hv).toText_inj (htexts w hw)).1
  rwa [List.map_map] at hinj

/-- The definition of the primary key is read back. -/
theorem readDefinitions_keyDefinition :
    readDefinitions ((keyDefinition t).map String.toList) = some ([], t.keyNames) := by
  unfold keyDefinition Table.keyNames
  split
  next hseveral =>
    let names := t.keyFields.map fun f => f.name.toText
    have hne : names ≠ [] := by
      rw [← List.length_pos_iff, List.length_map]
      omega
    have hwords : ∀ n ∈ names, ' ' ∉ n.toList :=
      List.forall_mem_map.2 fun f hf => (isWord_name h f (List.mem_of_mem_filter hf)).1
    have hcolumn : readColumn ("PRIMARY KEY (" ++ joinWith ", " names ++ ")").toList = none := by
      rw [String.append_assoc, String.toList_append]
      exact readColumn_key _
    rw [List.map_singleton, readDefinitions, hcolumn, if_pos rfl, readKey_names hne hwords]
    rfl
  next => rfl

/-- The definition of the primary key is in one line. -/
theorem line_keyDefinition : ∀ d ∈ keyDefinition t, '\n' ∉ d.toList ∧ d ≠ "" := by
  intro d hd
  unfold keyDefinition at hd
  split at hd
  · have hnames : '\n' ∉ (joinWith ", " (t.keyFields.map fun f => f.name.toText)).toList := by
      refine Text.notMem_joinWith (by decide) (List.forall_mem_map.2 fun f hf => ?_)
      exact (isWord_name h f (List.mem_of_mem_filter hf)).2
    rw [List.mem_singleton.1 hd]
    exact ⟨Text.notMem_append (Text.notMem_append (by decide) hnames) (by decide),
      append_ne_empty (append_ne_empty (by decide) _) _⟩
  · exact absurd hd List.not_mem_nil

/-- **The definitions of the table are read back.** -/
theorem readDefinitions_tableBody {body : List String} (hbody : tableBody t = .ok body) :
    (∀ d ∈ body, '\n' ∉ d.toList ∧ d ≠ "") ∧
    readDefinitions (body.map String.toList) =
      some (t.fields.map fun f => f.columnText (decide (t.keyFields.length ≤ 1)), t.keyNames) := by
  obtain ⟨columns, rfl, hcolumns⟩ := tableBody_eq_ok hbody
  have hchars : columns.map String.toList =
      (t.fields.map fun f => f.columnText (decide (t.keyFields.length ≤ 1))).map
        ColumnText.chars := by
    rw [List.map_map, ← List.forall₂_eq_eq_eq, List.forall₂_map_left_iff,
      List.forall₂_map_right_iff]
    exact hcolumns.flip.imp fun text f htext => Field.toList_column htext
  have hlegible : ∀ c ∈ t.fields.map fun f => f.columnText (decide (t.keyFields.length ≤ 1)),
      c.Legible := List.forall_mem_map.2 fun f hf => (h.fields f hf).columnText _
  constructor
  · intro d hd
    rcases List.mem_append.1 hd with hd | hd
    · have hmem := List.mem_map_of_mem (f := String.toList) hd
      rw [hchars] at hmem
      obtain ⟨c, hc, hd⟩ := List.mem_map.1 hmem
      rw [← hd]
      refine ⟨(hlegible c hc).line, ?_⟩
      rintro rfl
      exact c.chars_ne_nil hd
    · exact line_keyDefinition h d hd
  · rw [List.map_append, hchars]
    exact readDefinitions_chars hlegible (readDefinitions_keyDefinition h)

/-- **The columns of a primary key are found again**, wherever it is defined. -/
theorem resolve_primaryKey :
    ((t.fields.map fun f => f.columnText (decide (t.keyFields.length ≤ 1))).map fun c =>
      { c with primaryKey := c.primaryKey || t.keyNames.contains c.name }) =
    t.fields.map fun f => f.columnText true := by
  rw [List.map_map]
  refine List.map_congr_left fun f hf => ?_
  have hkey : (f.options.primaryKey.isTrue && decide (t.keyFields.length ≤ 1) ||
      t.keyNames.contains f.name.toText) = (f.options.primaryKey.isTrue && true) := by
    unfold Table.keyNames
    split
    next hseveral =>
      have hmany : ¬t.keyFields.length ≤ 1 := by omega
      rw [decide_eq_false hmany, Bool.and_false, Bool.false_or, Bool.and_true, Bool.eq_iff_iff,
        List.contains_iff_mem, List.mem_map]
      constructor
      · rintro ⟨g, hg, hname⟩
        obtain ⟨hmem, hmarked⟩ := List.mem_filter.1 hg
        rwa [← List.inj_on_of_nodup_map (nodup_names h) hmem hf hname]
      · intro hmarked
        exact ⟨f, List.mem_filter.2 ⟨hf, hmarked⟩, rfl⟩
    next hone =>
      have hfew : t.keyFields.length ≤ 1 := by omega
      rw [decide_eq_true hfew, List.contains_nil, Bool.or_false]
  simp only [Function.comp_apply, Field.columnText, hkey]

theorem readComments_commentList :
    readComments (commentObjects t.name.toText (t.fields.map fun f => f.name.toText))
      (commentChars t.commentList) = (t.commentList.map Prod.snd, []) := by
  have hobjects : commentObjects t.name.toText (t.fields.map fun f => f.name.toText) =
      t.commentList.map Prod.fst := by
    simp [commentObjects, Table.commentList]
  obtain ⟨s, hs, hword⟩ := h.name
  have hname : ' ' ∉ t.name.toText.toList := by
    rw [hs]
    exact hword.1
  rw [hobjects]
  apply readComments_commentChars
  · rw [← hobjects, commentObjects, List.forall_mem_cons, List.map_map]
    have hkinds : ' ' ∉ "TABLE".toList ∧ ' ' ∉ "COLUMN".toList := by decide
    refine ⟨⟨hkinds.1, hname⟩, List.forall_mem_map.2 fun f hf => ⟨hkinds.2, ?_⟩⟩
    exact Text.notMem_append (Text.notMem_append hname (by decide)) (isWord_name h f hf).1
  · rw [← hobjects, commentObjects, List.nodup_cons]
    refine ⟨by simp, (nodup_names h).map fun n m hnm => ?_⟩
    rw [CommentObject.mk.injEq, String.append_right_inj] at hnm
    exact hnm.2

/-- The statements for such a table are made unless a default has too many digits. -/
theorem succeeds_createTable_of_legible :
    Succeeds (createTable t).outcome ↔ ∀ f ∈ t.fields, FewDigits f.options.default := by
  refine succeeds_createTable fun f hf => ⟨isText_name h f hf, ?_⟩
  obtain ⟨s, hs, -⟩ := (h.fields f hf).type
  exact ⟨s, hs⟩

/-- **The statements for a table are read back.** -/
theorem readTable_createTable {text : String} (htext : (createTable t).outcome = .ok text) :
    readTable text.toList = some t.content := by
  obtain ⟨body, hbody, hchars⟩ := toList_createTable htext
  obtain ⟨hlines, hread⟩ := readDefinitions_tableBody h hbody
  obtain ⟨s, hs, hname⟩ := h.name
  have hline : '\n' ∉ t.name.toText.toList := by
    rw [hs]
    exact hname.2
  have hnames : (t.fields.map fun f => f.columnText (decide (t.keyFields.length ≤ 1))).map
      ColumnText.name = t.fields.map fun f => f.name.toText := by
    rw [List.map_map]
    rfl
  have hcomments := readComments_commentList h
  rw [← hnames] at hcomments
  rw [hchars, readTable_tableChars hline hlines hread (head?_commentChars _) hcomments,
    resolve_primaryKey h]
  rfl

end Legible

/-- **The statements for a table determine it.**  Take a table whose name and whose names of
columns, types and references are single words, in which a default is a constant and an expression
is in one line.  Its statements are made, unless a default has too many digits, and are read back to
what the table says.

So another such table with the same statements has the same name and the same comment, and as many
columns, which have in order the same names, the same types, the same places in the primary key and
so on.  They have the same expressions too, but for an expression that is empty, which is not
shown. -/
theorem agrees_of_createTable {t : Table} (h : t.Legible) :
    (Succeeds (createTable t).outcome ↔ ∀ f ∈ t.fields, FewDigits f.options.default) ∧
    ∀ text, (createTable t).outcome = .ok text → readTable text.toList = some t.content ∧
      ∀ u : Table, u.Legible → (createTable u).outcome = .ok text → t.Agrees u := by
  refine ⟨succeeds_createTable_of_legible h, fun text htext =>
    ⟨readTable_createTable h htext, fun u hu hsame => ?_⟩⟩
  have hfew := (succeeds_createTable_of_legible h).1 ⟨text, htext⟩
  have hfew' := (succeeds_createTable_of_legible hu).1 ⟨text, hsame⟩
  have hcontent := (readTable_createTable h htext).symm.trans (readTable_createTable hu hsame)
  rw [Option.some.injEq, Table.content, Table.content, TableText.mk.injEq] at hcontent
  obtain ⟨hname, hcolumns, hcomments⟩ := hcontent
  simp only [Table.commentList, List.map_cons, List.map_map, List.cons.injEq] at hcomments
  obtain ⟨s, hs, -⟩ := h.name
  obtain ⟨s', hs', -⟩ := hu.name
  have hboth : t.fields.map (fun f => (f.columnText true, f.options.comment.present?)) =
      u.fields.map fun f => (f.columnText true, f.options.comment.present?) := by
    rw [← List.zip_map', ← List.zip_map', hcolumns]
    exact congrArg _ hcomments.2
  refine ⟨(Value.IsText.toText_inj ⟨s, hs⟩ ⟨s', hs'⟩).1 hname,
    Value.present?_inj h.comment hu.comment hcomments.1, ?_⟩
  rw [← List.forall₂_eq_eq_eq, List.forall₂_map_left_iff, List.forall₂_map_right_iff,
    List.forall₂_iff_zip] at hboth
  refine List.forall₂_iff_zip.2 ⟨hboth.1, fun {f g} hmem => ?_⟩
  obtain ⟨hf, hg⟩ := List.of_mem_zip hmem
  obtain ⟨htext, hcomment⟩ := Prod.mk.inj (hboth.2 hmem)
  exact (h.fields f hf).agrees (hu.fields g hg) (hfew f hf) (hfew' g hg) htext hcomment

/-- A table whose names and texts look like other parts of its statements. -/
def membersTable : Table where
  name := .text "members"
  fields := [
    { name := .text "PRIMARY", type := .text "KEY",
      options := { primaryKey := .bool true, references := .text "teams(id)",
                   onDelete := some .setNull } },
    { name := .text "user", type := .text "uuid",
      options := { primaryKey := .bool true, null := .bool false, default := .text "it's",
                   comment := .text "';\nCOMMENT ON COLUMN members.total IS '" } },
    { name := .text "total", type := .text "string",
      options := { generated := .text "a) STORED UNIQUE, (b" } }]

/-- All of them are told apart. -/
theorem readTable_membersTable : membersTable.Legible ∧
    ∃ text, (createTable membersTable).outcome = .ok text ∧ readTable text.toList = some {
      name := "members"
      columns := [
        { name := "PRIMARY", type := "KEY", primaryKey := true, notNull := false, unique := false,
          default := none, references := some "teams(id)", onDelete := some .setNull,
          onUpdate := none, generated := none },
        { name := "user", type := "uuid", primaryKey := true, notNull := true, unique := false,
          default := some "'it''s'", references := none, onDelete := none, onUpdate := none,
          generated := none },
        { name := "total", type := "text", primaryKey := false, notNull := false, unique := false,
          default := none, references := none, onDelete := none, onUpdate := none,
          generated := some "a) STORED UNIQUE, (b" }]
      comments := [none, none, some "';\nCOMMENT ON COLUMN members.total IS '", none] } := by
  have hfields : ∀ f ∈ membersTable.fields, f.Legible := by
    simp only [membersTable, List.forall_mem_cons]
    refine ⟨?primary, ?user, ?total, nofun⟩
    case primary => exact
      { name := ⟨_, rfl, by decide⟩
        type := ⟨_, rfl, by decide⟩
        default := trivial
        references := Or.inr ⟨_, rfl, by decide, by decide⟩
        generated := Or.inl rfl
        comment := Or.inl rfl }
    case user => exact
      { name := ⟨_, rfl, by decide⟩
        type := ⟨_, rfl, by decide⟩
        default := (rfl : isExpression _ = false)
        references := Or.inl rfl
        generated := Or.inl rfl
        comment := Or.inr ⟨_, rfl⟩ }
    case total => exact
      { name := ⟨_, rfl, by decide⟩
        type := ⟨_, rfl, by decide⟩
        default := trivial
        references := Or.inl rfl
        generated := Or.inr ⟨_, rfl, by decide⟩
        comment := Or.inl rfl }
  have hchecked : Succeeds membersTable.checked := by
    refine (Table.succeeds_checked fun f hf => ?_).2 (by simp [membersTable])
    obtain ⟨s, hs, -⟩ := (hfields f hf).name
    exact ⟨s, hs⟩
  have h : membersTable.Legible :=
    ⟨⟨"members", rfl, by decide⟩, Or.inl rfl, hfields, hchecked⟩
  have hfew : ∀ f ∈ membersTable.fields, FewDigits f.options.default := by
    simp only [membersTable, List.forall_mem_cons]
    exact ⟨nofun, nofun, nofun, nofun⟩
  obtain ⟨hmade, hall⟩ := agrees_of_createTable h
  obtain ⟨text, htext⟩ := hmade.2 hfew
  exact ⟨h, text, htext, (hall text htext).1⟩

/-- A table with an expression that is empty, and one without an expression. -/
def ordersTable (generated : Value) : Table where
  name := .text "orders"
  fields := [{ name := .text "total", type := .text "integer", options := { generated } }]

theorem legible_ordersTable {generated : Value}
    (h : generated = .null ∨ ∃ s, generated = .text s ∧ '\n' ∉ s.toList) :
    (ordersTable generated).Legible where
  name := ⟨"orders", rfl, by decide⟩
  comment := Or.inl rfl
  fields := List.forall_mem_singleton.2
    { name := ⟨"total", rfl, by decide⟩
      type := ⟨"integer", rfl, by decide⟩
      default := trivial
      references := Or.inl rfl
      generated := h
      comment := Or.inl rfl }
  checked := ⟨_, rfl⟩

/-- **An expression that is empty is not shown**: the two tables have the same statements. -/
theorem createTable_emptyExpression :
    (ordersTable (.text "")).Legible ∧ (ordersTable .null).Legible ∧
    (createTable (ordersTable (.text ""))).outcome =
      .ok "CREATE TABLE orders (\n  total integer\n);" ∧
    (createTable (ordersTable .null)).outcome =
      .ok "CREATE TABLE orders (\n  total integer\n);" ∧
    (ordersTable (.text "")).fields.map (fun f => f.options.generated) ≠
      (ordersTable .null).fields.map fun f => f.options.generated := by
  refine ⟨legible_ordersTable (Or.inr ⟨"", rfl, List.not_mem_nil⟩),
    legible_ordersTable (Or.inl rfl), rfl, rfl, ?_⟩
  intro heq
  rw [ordersTable, ordersTable, List.map_singleton, List.map_singleton, List.singleton_inj] at heq
  cases heq

end Sql
end SchemaCompiler
