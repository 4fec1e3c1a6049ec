import SchemaCompiler.Migration.Document
import SchemaCompiler.Proofs.Sql.Generation

/-!
# What a migration document contains

A document is three comment lines and the statements of its schemas.  Scanned as SQL it has exactly
the statements that the schemas call for, however their free texts read.

* `Schema.statementCount` — how many statements a schema calls for;
* `ends_render` — a block ends in plain text, with its number of statements;
* `scan_header` — the header is three comments, and what follows is plain text;
* `scan_compileDocument` — **a document has exactly the intended statements**.
-/

namespace SchemaCompiler

open Sql

/-! ### How many statements a schema calls for -/

/-- The statements for a table: the table with its comments, the switch for row level security, two
for each policy, one for each index and its comment, and two for each trigger. -/
def Table.statementCount (t : Table) : Nat :=
  1 + tableCommentCount t + (if t.rlsEnabled then 1 else 0) + 2 * t.policies.length +
    (t.indexes.map fun i => 1 + commentCount i.options.comment).sum + 2 * t.triggers.length

/-- The statements for a schema. -/
def Schema.statementCount (s : Schema) : Nat :=
  s.customTypes.length + (s.tables.map Table.statementCount).sum + s.functions.length +
    (s.views.map fun v => 1 + commentCount v.options.comment).sum +
    (s.storageBuckets.map fun b => 1 + 2 * b.policies.length).sum

/-- The statements of a block. -/
def Statement.count : Statement → Nat
  | .customType _ => 1
  | .table t => 1 + tableCommentCount t
  | .rowSecurity _ => 1
  | .policies t => (t.policies.map fun _ => 2).sum
  | .indexes t => (t.indexes.map fun i => 1 + commentCount i.options.comment).sum
  | .triggers t => (t.triggers.map fun _ => 2).sum
  | .function _ => 1
  | .view v => 1 + commentCount v.options.comment
  | .bucket _ => 1
  | .bucketPolicy _ _ => 2

theorem sum_map_const {α : Type} (xs : List α) (n : Nat) :
    (xs.map fun _ => n).sum = n * xs.length := by
  rw [List.map_const', List.sum_replicate_nat, Nat.mul_comm]

/-- A block is left out only where it would have no statements. -/
theorem Table.sum_count_statements (t : Table) :
    (t.statements.map Statement.count).sum = t.statementCount := by
  have hsecurity : ((if t.rlsEnabled then [Statement.rowSecurity t] else []).map
      Statement.count).sum = if t.rlsEnabled then 1 else 0 := by
    split <;> rfl
  have hpolicies : ((if t.policies.isEmpty then [] else [Statement.policies t]).map
      Statement.count).sum = 2 * t.policies.length := by
    cases hp : t.policies with
    | nil => rfl
    | cons p ps =>
      rw [← hp, ← sum_map_const]
      simp [hp, Statement.count]
  have hindexes : ((if t.indexes.isEmpty then [] else [Statement.indexes t]).map
      Statement.count).sum = (t.indexes.map fun i => 1 + commentCount i.options.comment).sum := by
    cases hi : t.indexes with
    | nil => rfl
    | cons i is => simp [hi, Statement.count]
  have htriggers : ((if t.triggers.isEmpty then [] else [Statement.triggers t]).map
      Statement.count).sum = 2 * t.triggers.length := by
    cases hg : t.triggers with
    | nil => rfl
    | cons g gs =>
      rw [← hg, ← sum_map_const]
      simp [hg, Statement.count]
  simp only [Table.statements, List.map_cons, List.sum_cons, List.map_append, List.sum_append,
    hsecurity, hpolicies, hindexes, htriggers, Statement.count, Table.statementCount]
  omega

theorem sum_map_flatMap {α β : Type} (count : β → Nat) (parts : α → List β) (xs : List α) :
    ((xs.flatMap parts).map count).sum = (xs.map fun x => ((parts x).map count).sum).sum := by
  induction xs with
  | nil => rfl
  | cons x xs ih =>
    rw [List.flatMap_cons, List.map_append, List.sum_append, ih, List.map_cons, List.sum_cons]

theorem Schema.sum_count_statements (s : Schema) :
    (s.statements.map Statement.count).sum = s.statementCount := by
  have hbucket (b : StorageBucket) :
      (b.statements.map Statement.count).sum = 1 + 2 * b.policies.length := by
    rw [StorageBucket.statements, List.map_cons, List.sum_cons, List.map_map, ← sum_map_const]
    rfl
  have htypes : ((s.customTypes.map Statement.customType).map Statement.count).sum =
      s.customTypes.length := by
    rw [List.map_map, ← Nat.one_mul s.customTypes.length, ← sum_map_const]
    rfl
  have hfunctions : ((s.functions.map Statement.function).map Statement.count).sum =
      s.functions.length := by
    rw [List.map_map, ← Nat.one_mul s.functions.length, ← sum_map_const]
    rfl
  have hviews : ((s.views.map Statement.view).map Statement.count).sum =
      (s.views.map fun v => 1 + commentCount v.options.comment).sum := by
    rw [List.map_map]
    rfl
  simp only [Schema.statements, List.map_append, List.sum_append, sum_map_flatMap, htypes,
    Table.sum_count_statements, hfunctions, hviews, hbucket, Schema.statementCount]

/-! ### Blocks -/

/-- A block of which the texts can be written out. -/
def Statement.IsClosed : Statement → Prop
  | .customType t => t.IsClosed
  | .table t | .rowSecurity t | .policies t | .indexes t | .triggers t => t.IsClosed
  | .function f => f.IsClosed
  | .view v => v.IsClosed
  | .bucket _ => True
  | .bucketPolicy b p => Closed b.name.toText ∧ p.IsClosed

/-- **A block ends in plain text**, with its number of statements. -/
theorem ends_render {b : Statement} (h : b.IsClosed) {text : String}
    (htext : b.render.outcome = .ok text) : Ends text .plain b.count := by
  cases b with
  | customType t => exact ends_createType h htext
  | table t => exact ends_createTable h htext
  | rowSecurity t =>
    rw [← Except.ok.inj htext]
    exact ends_enableRowSecurity h.name
  | policies t =>
    have hpolicies : (Statement.renderPolicies t).outcome = RowSecurity.createPolicies t := by
      unfold Statement.renderPolicies
      cases t.rlsEnabled <;> rfl
    exact ends_createPolicies h (hpolicies ▸ htext)
  | indexes t =>
    rw [← Except.ok.inj htext]
    exact ends_createIndexes h
  | triggers t =>
    rw [← Except.ok.inj htext]
    exact ends_createTriggers h
  | function f => exact ends_createFunction h htext
  | view v => exact ends_createView h htext
  | bucket b => exact ends_upsertBucket htext
  | bucketPolicy b p =>
    rw [← Except.ok.inj htext]
    exact ends_createStoragePolicy h.1 h.2

theorem Table.isClosed_statements {t : Table} (h : t.IsClosed) :
    ∀ b ∈ t.statements, b.IsClosed := by
  intro b hb
  simp only [Table.statements, List.mem_cons, List.mem_append] at hb
  rcases hb with rfl | ((hb | hb) | hb) | hb
  · exact h
  all_goals
    split at hb
    all_goals first
      | exact absurd hb List.not_mem_nil
      | exact List.mem_singleton.1 hb ▸ h

theorem Schema.isClosed_statements {s : Schema} (h : s.IsClosed) :
    ∀ b ∈ s.statements, b.IsClosed := by
  intro b hb
  simp only [Schema.statements, List.mem_append, List.mem_map, List.mem_flatMap] at hb
  rcases hb with (((⟨t, ht, rfl⟩ | ⟨t, ht, hb⟩) | ⟨f, hf, rfl⟩) | ⟨v, hv, rfl⟩) | ⟨u, hu, hb⟩
  · exact h.customTypes t ht
  · exact Table.isClosed_statements (h.tables t ht) b hb
  · exact h.functions f hf
  · exact h.views v hv
  · rcases List.mem_cons.1 hb with rfl | hb
    · exact trivial
    · obtain ⟨p, hp, rfl⟩ := List.mem_map.1 hb
      exact ⟨(h.storageBuckets u hu).name, (h.storageBuckets u hu).policies p hp⟩

/-! ### All blocks -/

/-- The texts of the blocks of a schema, with their statements. -/
theorem ends_compileSchema {s : Schema} (h : s.IsClosed) {texts : List String}
    (htexts : (compileSchema s).outcome = .ok texts) :
    List.Forall₂ (fun text n => Ends text .plain n) texts (s.statements.map Statement.count) := by
  unfold compileSchema at htexts
  simp only [Statement.renderAll, Traced.outcome_bind, Traced.outcome_each, Traced.outcome_note,
    Traced.outcome_pure] at htexts
  obtain ⟨blocks, hblocks, htexts⟩ := bind_eq_ok.1 htexts
  rw [ok_bind, Except.ok.injEq] at htexts
  rw [← htexts]
  exact ends_of_mapM hblocks fun b hb text htext =>
    ends_render (Schema.isClosed_statements h b hb) htext

/-- Leaving out empty texts leaves out no statements. -/
theorem ends_filter {texts : List String} {counts : List Nat}
    (h : List.Forall₂ (fun text n => Ends text .plain n) texts counts) :
    ∃ kept, List.Forall₂ (fun text n => Ends text .plain n) (texts.filter (· ≠ "")) kept ∧
      kept.sum = counts.sum := by
  induction h with
  | nil => exact ⟨[], .nil, rfl⟩
  | @cons text n texts counts htext _ ih =>
    obtain ⟨kept, hkept, hsum⟩ := ih
    by_cases hempty : text = ""
    · subst hempty
      have hn : 0 = n := (Scan.mk.inj htext).2.1
      refine ⟨kept, ?_, by rw [hsum, List.sum_cons, ← hn, Nat.zero_add]⟩
      rwa [List.filter_cons_of_neg (by simp)]
    · refine ⟨n :: kept, ?_, by rw [List.sum_cons, List.sum_cons, hsum]⟩
      rw [List.filter_cons_of_pos (by simpa using hempty)]
      exact .cons htext hkept

/-- The texts of several schemas, with their statements. -/
theorem ends_flatten {schemas : List Schema} (h : ∀ s ∈ schemas, s.IsClosed)
    {blocks : List (List String)}
    (hblocks : List.Forall₂ (fun s texts => (compileSchema s).outcome = .ok texts) schemas blocks) :
    ∃ counts, List.Forall₂ (fun text n => Ends text .plain n) blocks.flatten counts ∧
      counts.sum = (schemas.map Schema.statementCount).sum := by
  induction hblocks with
  | nil => exact ⟨[], .nil, rfl⟩
  | @cons s texts schemas blocks htexts _ ih =>
    obtain ⟨counts, hcounts, hsum⟩ := ih fun s' hs' => h s' (List.mem_cons_of_mem s hs')
    have hs := ends_compileSchema (h s List.mem_cons_self) htexts
    refine ⟨s.statements.map Statement.count ++ counts, ?_, ?_⟩
    · rw [List.flatten_cons]
      exact List.rel_append hs hcounts
    · rw [List.sum_append, hsum, Schema.sum_count_statements, List.map_cons, List.sum_cons]

/-- **The statements of several schemas** are those of all of them together. -/
theorem ends_compile {schemas : List Schema} (h : ∀ s ∈ schemas, s.IsClosed) {texts : List String}
    (htexts : (compile schemas).outcome = .ok texts) :
    Ends (Text.joinWith "\n\n" texts) .plain (schemas.map Schema.statementCount).sum := by
  unfold compile at htexts
  simp only [Traced.outcome_bind, Traced.outcome_each, Traced.outcome_pure] at htexts
  obtain ⟨blocks, hblocks, htexts⟩ := bind_eq_ok.1 htexts
  rw [Except.ok.injEq] at htexts
  obtain ⟨counts, hcounts, hsum⟩ := ends_flatten h (mapM_eq_ok.1 hblocks)
  obtain ⟨kept, hkept, hkeptSum⟩ := ends_filter hcounts
  rw [← htexts, ← hsum, ← hkeptSum]
  exact ends_joinWith isSeparator_empty_line hkept

/-! ### The header -/

/-- A text in one line. -/
def OneLine (s : String) : Prop := ∀ c ∈ s.toList, c ≠ '\n' ∧ c ≠ '\r'

theorem OneLine.append {a b : String} (ha : OneLine a) (hb : OneLine b) : OneLine (a ++ b) := by
  intro c hc
  rw [String.toList_append, List.mem_append] at hc
  exact hc.elim (ha c) (hb c)

theorem OneLine.of_chars {cs : List Char}
    (h : (cs.all fun c => c != '\n' && c != '\r') = true) :
    OneLine (String.ofList cs) := by
  intro c hc
  rw [String.toList_ofList] at hc
  simpa using List.all_eq_true.1 h c hc

theorem oneLine_padNumber (width n : Nat) : OneLine (Text.padNumber width n) := by
  have hzeros : Ordinary (List.replicate (width - (Nat.toDigits 10 n).length) '0') :=
    .replicate (by decide) _
  intro c hc
  rw [Text.padNumber, String.toList_ofList] at hc
  have hord := isOrdinary_iff.1 ((hzeros.append (ordinary_toDigits n)) c hc)
  exact ⟨fun heq => hord (by simp [heq, specials]), fun heq => hord (by simp [heq, specials])⟩

/-- A number in a text of several, after a fixed text. -/
theorem OneLine.field {a separator : String} (ha : OneLine a) (hs : OneLine separator)
    (width n : Nat) : OneLine (a ++ separator ++ Text.padNumber width n) :=
  (ha.append hs).append (oneLine_padNumber width n)

theorem oneLine_isoText (t : Time) : OneLine t.isoText := by
  have hdash : OneLine "-" := .of_chars rfl
  have hletter : OneLine "T" := .of_chars rfl
  have hcolon : OneLine ":" := .of_chars rfl
  have hpoint : OneLine "." := .of_chars rfl
  have hzone : OneLine "+00:00" := .of_chars rfl
  have hmicro : OneLine (if t.microsecond = 0 then ""
      else "." ++ Text.padNumber 6 t.microsecond) := by
    split
    · exact nofun
    · exact hpoint.append (oneLine_padNumber 6 t.microsecond)
  have hdate := ((oneLine_padNumber 4 t.year).field hdash 2 t.month).field hdash 2 t.day
  have htime := ((hdate.field hletter 2 t.hour).field hcolon 2 t.minute).field hcolon 2 t.second
  exact (htime.append hmicro).append hzone

/-- A comment goes on to the end of its line. -/
theorem scan_comment_line {s : String} (h : OneLine s) (rest : List Char) :
    scan .comment (s.toList ++ '\n' :: rest) = scan .plain rest := by
  have hall : ∀ cs : List Char, (∀ c ∈ cs, c ≠ '\n' ∧ c ≠ '\r') →
      scan .comment (cs ++ '\n' :: rest) = scan .plain rest := by
    intro cs hcs
    induction cs with
    | nil => rfl
    | cons c cs ih =>
      obtain ⟨hfeed, hreturn⟩ := hcs c List.mem_cons_self
      rw [List.cons_append, scan_comment_cons hfeed hreturn]
      exact ih fun d hd => hcs d (List.mem_cons_of_mem c hd)
  exact hall s.toList h

namespace Migration

/-- **The header is three comments**, and what follows it is plain text. -/
theorem scan_header {h : Header} (hdescription : OneLine h.description.toText)
    (htool : OneLine h.toolName.toText) (rest : List Char) :
    scan .plain (h.text.toList ++ rest) = (scan .plain rest).after 0 3 := by
  have hline : ∀ s, OneLine s → ∀ rest : List Char,
      scan .plain ('-' :: '-' :: (s.toList ++ '\n' :: rest)) = (scan .plain rest).after 0 1 := by
    intro s hs rest
    rw [scan, scan_comment_line hs]
  have hsplit : h.text.toList ++ rest =
      '-' :: '-' :: ((" " ++ h.description.toText).toList ++ '\n' ::
        '-' :: '-' :: ((" Created: " ++ h.created.isoText).toList ++ '\n' ::
          '-' :: '-' :: ((" Generated by: " ++ h.toolName.toText).toList ++ '\n' :: rest))) := by
    simp [Header.text, String.toList_append]
  have hfirst : OneLine (" " ++ h.description.toText) := .append (.of_chars rfl) hdescription
  have hsecond : OneLine (" Created: " ++ h.created.isoText) :=
    .append (.of_chars rfl) (oneLine_isoText h.created)
  have hthird : OneLine (" Generated by: " ++ h.toolName.toText) :=
    .append (.of_chars rfl) htool
  rw [hsplit, hline _ hfirst, hline _ hsecond, hline _ hthird, Scan.after_after, Scan.after_after]

/-- **A document has exactly the intended statements**, whatever its free texts say.  Where names,
types and expressions are closed texts and bodies have no double dollars in them, the scan of the
whole document ends in plain text; it passed the three comments of the header and no other, and one
end of a statement for each statement that the schemas call for. -/
theorem scan_compileDocument {h : Header} {schemas : List Schema} {text : String}
    (hdescription : OneLine h.description.toText) (htool : OneLine h.toolName.toText)
    (hclosed : ∀ s ∈ schemas, s.IsClosed) (hok : (compileDocument h schemas).outcome = .ok text) :
    scan .plain text.toList = ⟨.plain, (schemas.map Schema.statementCount).sum, 3⟩ := by
  unfold compileDocument at hok
  simp only [Traced.outcome_bind, Traced.outcome_lift, Traced.outcome_pure] at hok
  obtain ⟨statements, hstatements, hok⟩ := bind_eq_ok.1 hok
  obtain ⟨created, -, hok⟩ := bind_eq_ok.1 hok
  rw [Except.ok.injEq] at hok
  have hends := ends_compile hclosed hstatements
  have hlast : scan .plain ("\n" ++ Text.joinWith "\n\n" statements ++ "\n").toList =
      ⟨.plain, (schemas.map Schema.statementCount).sum, 0⟩ := by
    have hfront : Settles "\n" .plain 0 := Passes.settles (.of_chars rfl)
    have hmiddle := hfront.append hends
    rw [Nat.zero_add] at hmiddle
    exact (hmiddle.code (b := "\n") (.of_chars rfl)).ends
  have hheader := scan_header (h := { h with created }) hdescription htool
  rw [← hok, documentText, String.append_assoc, String.append_assoc, String.toList_append,
    ← String.append_assoc, hheader, hlast]
  simp only [Scan.after, Nat.zero_add, Nat.add_zero]

/-- A table whose free texts look like SQL. -/
def books : Table where
  name := .text "books"
  fields := [{ name := .text "title", type := .text "string"
               options := { default := .text "it's", comment := .text "A title; -- $$" } }]
  indexes := [{ fields := ["title"] }]
  policies := [{ action := .select, description := .text "'; DROP TABLE books; --"
                 condition := .text "true" }]
  triggers := [{ name := .text "touch", events := [.text "update"]
                 body := .text "PERFORM 'a;b'; -- done;" }]
  rlsEnabled := true

/-- A schema with this table and a type. -/
def library : Schema where
  tables := [books]
  customTypes := [{ name := .text "mood", kind := some .enum, values := .list [.text "don't;"] }]

/-- The header of a document. -/
def libraryHeader : Header where
  description := .text "Books; it's a start"
  created := ⟨2024, 5, 1, 12, 30, 0, 0, .fixed 0⟩
  toolName := .text "schema-compiler"

theorem books_isClosed : books.IsClosed where
  name := .of_chars rfl
  fields := by
    refine List.forall_mem_singleton.2
      ⟨.of_chars rfl, .of_chars rfl, ?_, .of_chars rfl, .of_chars rfl⟩
    exact fun h => absurd h (by decide)
  indexes := by
    refine List.forall_mem_singleton.2 ⟨List.forall_mem_singleton.2 ?_, ?_, ?_, ?_⟩
    all_goals exact .of_chars rfl
  policies := by
    refine List.forall_mem_singleton.2 ⟨?_, ?_, ?_, ?_⟩
    all_goals exact Ends.of_chars rfl
  triggers := by
    refine List.forall_mem_singleton.2 ⟨?_, List.forall_mem_singleton.2 ?_, ?_, ?_⟩
    · exact .of_chars rfl
    · exact .of_chars rfl
    · exact .of_chars (by decide)
    · exact .of_chars rfl

theorem library_isClosed : library.IsClosed where
  tables := List.forall_mem_singleton.2 books_isClosed
  functions := nofun
  views := nofun
  storageBuckets := nofun
  customTypes := by
    refine List.forall_mem_singleton.2 ⟨.of_chars rfl, ?_, .of_chars rfl, .of_chars rfl⟩
    exact fun _ h => absurd h nofun

/-- A document with such texts has nine statements. -/
theorem scan_libraryDocument : ∃ text,
    (compileDocument libraryHeader [library]).outcome = .ok text ∧
    scan .plain text.toList = ⟨.plain, 9, 3⟩ := by
  have hok : ∃ text, (compileDocument libraryHeader [library]).outcome = .ok text := by
    have hsome : (compileDocument libraryHeader [library]).outcome.toOption.isSome = true := by
      decide +kernel
    cases hout : (compileDocument libraryHeader [library]).outcome with
    | ok text => exact ⟨text, rfl⟩
    | error fault =>
      rw [hout] at hsome
      exact absurd hsome nofun
  obtain ⟨text, htext⟩ := hok
  have hdescription : OneLine libraryHeader.description.toText := .of_chars rfl
  have htool : OneLine libraryHeader.toolName.toText := .of_chars rfl
  exact ⟨text, htext, scan_compileDocument hdescription htool
    (List.forall_mem_singleton.2 library_isClosed) htext⟩

end Migration
end SchemaCompiler
