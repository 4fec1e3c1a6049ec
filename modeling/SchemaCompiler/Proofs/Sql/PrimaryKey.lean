import SchemaCompiler.Proofs.Migration.Compilation
import SchemaCompiler.Proofs.Sql.Generation
import SchemaCompiler.Proofs.Text.Occurrence

/-!
# The primary key of a table

A table names its primary key in one place: at its column, or as a constraint of its own if it has
several columns.  That it is one place is a matter of counting words in a text that is put together
from texts of which little is known: none of them has the word `PRIMARY`.

* `Marks` — texts in which `PRIMARY KEY` stands a number of times, and `PRIMARY` nowhere else;
* `Stops`, `IsCode` — fixed texts, at whose ends no further `PRIMARY` can arise;
* `marks_literal` — quotes neither make nor hide a word;
* `marks_column`, `marks_tableBody` — columns, and the definitions of a table;
* `count_createTable` — **a primary key is rendered once**.
-/

namespace SchemaCompiler

/-- The fields of a table that make up its primary key. -/
def Table.keyFields (t : Table) : List Field := t.fields.filter fun f => f.options.primaryKey.isTrue

/-- A field with texts in which a word does not occur. -/
structure Field.Omits (word : String) (f : Field) : Prop where
  name : Text.Lacks word f.name.toText
  type : Text.Lacks word f.type.toText
  default : Text.Lacks word f.options.default.toText
  references : Text.Lacks word f.options.references.toText
  generated : Text.Lacks word f.options.generated.toText
  comment : Text.Lacks word f.options.comment.toText

/-- A table with texts in which a word does not occur. -/
structure Table.Omits (word : String) (t : Table) : Prop where
  name : Text.Lacks word t.name.toText
  comment : Text.Lacks word t.options.comment.toText
  fields : ∀ f ∈ t.fields, f.Omits word

namespace Sql

open Text

/-! ### Texts that mark a primary key -/

/-- A text in which the words for a primary key stand `n` times, and the first of them nowhere
else. -/
structure Marks (s : String) (n : Nat) : Prop where
  first : count "PRIMARY" s = n
  both : count "PRIMARY KEY" s = n

/-- A text that marks primary keys, and at whose end no further mark can arise. -/
structure Stops (s : String) (n : Nat) : Prop extends Marks s n where
  apart : EndsApart "PRIMARY" s

/-- A fixed text without a mark, at whose ends none can arise. -/
structure IsCode (s : String) : Prop extends Stops s 0 where
  starts : StartsApart "PRIMARY" s

section Rules

variable {a b s : String} {n k : Nat}

/-- Both words do not occur more often than the first one. -/
theorem Marks.of_le (hfirst : count "PRIMARY" s = n) (hboth : n ≤ count "PRIMARY KEY" s) :
    Marks s n := by
  refine ⟨hfirst, Nat.le_antisymm ?_ hboth⟩
  rw [← hfirst]
  exact count_append_word_le "PRIMARY" " KEY" s

theorem marks_zero (h : Lacks "PRIMARY" s) : Marks s 0 :=
  .of_le ((count_eq_zero_iff (by decide)).2 h) (Nat.zero_le _)

theorem Stops.text (h : Stops a n) (hb : Marks b k) : Marks (a ++ b) (n + k) := by
  refine .of_le ?_ ?_
  · rw [count_append_of_endsApart (by decide) h.apart, h.first, hb.first]
  · rw [← h.both, ← hb.both]
    exact count_append_le _ a b

/-- A text without a mark. -/
theorem Stops.plain (h : Stops a n) (hb : Marks b 0) : Marks (a ++ b) n := h.text hb

theorem Marks.code (h : Marks a n) (hb : IsCode b) : Stops (a ++ b) n where
  toMarks := by
    refine .of_le ?_ ?_
    · rw [count_append_of_startsApart hb.starts, h.first, hb.first, Nat.add_zero]
    · rw [← h.both]
      exact (Nat.le_add_right _ _).trans (count_append_le _ a b)
  apart := hb.apart.append a

/-- Whether fixed text marks primary keys `n` times and ends apart from what follows. -/
def stops (n : Nat) (cs : List Char) : Bool :=
  occurrences "PRIMARY".toList cs == n && occurrences "PRIMARY KEY".toList cs == n &&
    cs.getLast?.any fun c => !"PRIMARY".toList.contains c

theorem Stops.of_chars {cs : List Char} (h : stops n cs = true) : Stops (String.ofList cs) n := by
  rw [stops, Bool.and_eq_true, Bool.and_eq_true, beq_iff_eq, beq_iff_eq] at h
  refine ⟨⟨?_, ?_⟩, .of_chars h.2⟩
  · rw [count_ofList, h.1.1]
  · rw [count_ofList, h.1.2]

theorem IsCode.of_chars {cs : List Char}
    (h : (stops 0 cs && cs.head?.any fun c => !"PRIMARY".toList.contains c) = true) :
    IsCode (String.ofList cs) := by
  rw [Bool.and_eq_true] at h
  exact ⟨.of_chars h.1, .of_chars h.2⟩

/-- **Texts that are joined mark as many primary keys as all of them together.**  Each of them is
known to mark one or none. -/
theorem marks_joinWith {separator : String} (hsep : IsCode separator) {items : List String}
    {flags : List Bool} (h : List.Forall₂ (fun s b => Marks s b.toNat) items flags) :
    Marks (joinWith separator items) (flags.count true) := by
  induction h with
  | nil => exact marks_zero (s := "") (by decide)
  | @cons s b items flags hs hitems ih =>
    have hcount : (b :: flags).count true = b.toNat + flags.count true := by
      rw [List.count_cons, Nat.add_comm]
      cases b <;> rfl
    rw [hcount]
    cases hitems with
    | nil => exact hs
    | cons ht hrest => exact (hs.code hsep).text ih

/-- A text before others that have no mark. -/
theorem marks_joinWith_cons {separator : String} (hsep : IsCode separator) (hs : Marks s n)
    {rest : List String} (hrest : ∀ t ∈ rest, Marks t 0) :
    Marks (joinWith separator (s :: rest)) n := by
  induction rest generalizing s n with
  | nil => exact hs
  | cons t rest ih =>
    rw [List.forall_mem_cons] at hrest
    exact (hs.code hsep).plain (ih hrest.1 hrest.2)

theorem marks_joinWith_zero {separator : String} (hsep : IsCode separator) {items : List String}
    (h : ∀ s ∈ items, Marks s 0) : Marks (joinWith separator items) 0 := by
  cases items with
  | nil => exact marks_zero (s := "") (by decide)
  | cons s items =>
    rw [List.forall_mem_cons] at h
    exact marks_joinWith_cons hsep h.1 h.2

end Rules

/-! ### Literals -/

section Literals

variable {word : List Char}

theorem isPrefixOf_doubleQuotes (hquote : '\'' ∉ word) (cs : List Char) :
    word.isPrefixOf (doubleQuotes cs) = word.isPrefixOf cs := by
  induction word generalizing cs with
  | nil => rfl
  | cons d word ih =>
    rw [List.mem_cons, not_or] at hquote
    cases cs with
    | nil => rfl
    | cons c cs =>
      rw [doubleQuotes_cons]
      split
      next hc =>
        rw [hc, List.isPrefixOf_cons_cons, List.isPrefixOf_cons_cons,
          beq_false_of_ne (Ne.symm hquote.1), Bool.false_and, Bool.false_and]
      next => rw [List.isPrefixOf_cons_cons, List.isPrefixOf_cons_cons, ih hquote.2]

/-- **Quotes that are written twice neither make nor hide a word.** -/
theorem occurrences_doubleQuotes (hword : word ≠ []) (hquote : '\'' ∉ word) (cs : List Char) :
    occurrences word (doubleQuotes cs) = occurrences word cs := by
  induction cs with
  | nil => rfl
  | cons c cs ih =>
    by_cases hc : c = '\''
    · -- The word does not start at a quote, be it written once or twice.
      rw [doubleQuotes_cons, if_pos hc, hc, occurrences_cons hword hquote,
        occurrences_cons hword hquote, occurrences_cons hword hquote, ih]
    · have hprefix := isPrefixOf_doubleQuotes hquote (c :: cs)
      rw [doubleQuotes_cons, if_neg hc] at hprefix ⊢
      rw [occurrences, occurrences, hprefix, ih]

theorem marks_textLiteral {s : String} (h : Lacks "PRIMARY" s) : Marks (textLiteral s) 0 := by
  have hquoted : Lacks "PRIMARY" (String.ofList (doubleQuotes s.toList)) := by
    rw [← count_eq_zero_iff (by decide)] at h ⊢
    rw [count_ofList, occurrences_doubleQuotes (by decide) (by decide)]
    exact h
  refine (Marks.code ?_ (.of_chars rfl)).toMarks
  exact Stops.plain (.of_chars rfl) (marks_zero hquoted)

theorem marks_literal {v : Value} (h : Lacks "PRIMARY" v.toText) : Marks (literal v) 0 :=
  marks_textLiteral h

theorem marks_defaultText {v : Value} {text : String} (h : Lacks "PRIMARY" v.toText)
    (htext : defaultText v = .ok text) : Marks text 0 := by
  cases v with
  | int n =>
    obtain ⟨-, rfl⟩ := wholeText_eq_ok.1 htext
    exact marks_zero h
  | bool b =>
    cases htext
    cases b <;> exact marks_zero (by decide)
  | float x =>
    cases htext
    exact marks_zero h
  | decimal d =>
    cases htext
    exact marks_zero h
  | text s =>
    cases htext
    split
    · exact marks_zero h
    · exact marks_textLiteral h
  | null | list _ | tuple _ | mapping _ | member _ | record _ _ =>
    cases htext
    exact marks_literal h

theorem marks_defaultParts {v : Value} {parts : List String} (h : Lacks "PRIMARY" v.toText)
    (hparts : defaultParts v = .ok parts) : ∀ s ∈ parts, Marks s 0 := by
  intro s hs
  rcases defaultParts_eq_ok.1 hparts with ⟨-, rfl⟩ | ⟨-, text, htext, rfl⟩
  · exact absurd hs List.not_mem_nil
  · rw [List.mem_singleton.1 hs]
    exact Stops.plain (.of_chars rfl) (marks_defaultText h htext)

end Literals

/-! ### Columns -/

theorem marks_typeName {type name : Value} (htype : Lacks "PRIMARY" type.toText)
    (h : typeName type = .ok name) : Marks name.toText 0 := by
  have hlabels : ∀ m : Member, Lacks "PRIMARY" m.label := by
    rintro (m | m | m | m | m | m | m | m) <;> cases m <;> decide
  have haliases : ∀ a ∈ typeAliases, Lacks "PRIMARY" a.2 := by decide +kernel
  exact marks_zero (typeName_induction haliases hlabels htype h)

theorem marks_referenceParts {o : FieldOptions} (h : Lacks "PRIMARY" o.references.toText) :
    ∀ s ∈ referenceParts o, Marks s 0 := by
  have hkeyword : ∀ a : ReferentialAction, Marks (spacedKeyword a) 0 := fun a =>
    marks_zero (by cases a <;> decide +kernel)
  intro s hs
  unfold referenceParts at hs
  split at hs
  · rw [List.cons_append, List.mem_cons, List.mem_append, List.mem_map, List.mem_map] at hs
    rcases hs with rfl | ⟨a, -, rfl⟩ | ⟨a, -, rfl⟩
    · exact Stops.plain (.of_chars rfl) (marks_zero h)
    · exact Stops.plain (.of_chars rfl) (hkeyword a)
    · exact Stops.plain (.of_chars rfl) (hkeyword a)
  · exact absurd hs List.not_mem_nil

/-- The mark of a primary key stands before the other constraints. -/
theorem constraintParts_eq (o : FieldOptions) (markPrimaryKey : Bool) (default : List String) :
    constraintParts o markPrimaryKey default =
      (if o.primaryKey.isTrue && markPrimaryKey then ["PRIMARY KEY"] else []) ++
        constraintParts o false default := by
  simp only [constraintParts, Bool.and_false, Bool.false_eq_true, if_false, List.nil_append,
    List.append_assoc]

theorem marks_constraintParts {f : Field} (h : f.Omits "PRIMARY") {default : List String}
    (hdefault : ∀ s ∈ default, Marks s 0) :
    ∀ s ∈ constraintParts f.options false default, Marks s 0 := by
  intro s hs
  simp only [constraintParts, Bool.and_false, Bool.false_eq_true, if_false, List.nil_append,
    List.mem_append] at hs
  rcases hs with (((hs | hs) | hs) | hs) | hs
  · split at hs
    · rw [List.mem_singleton.1 hs]
      exact marks_zero (by decide)
    · exact absurd hs List.not_mem_nil
  · rw [mem_ite_singleton hs]
    exact marks_zero (by decide)
  · exact hdefault s hs
  · exact marks_referenceParts h.references s hs
  · rw [mem_ite_singleton hs]
    refine (Marks.code ?_ (.of_chars rfl)).toMarks
    exact Stops.plain (.of_chars rfl) (marks_zero h.generated)

/-- **A column marks a primary key if it is to, and then once.** -/
theorem marks_column {f : Field} (h : f.Omits "PRIMARY") {markPrimaryKey : Bool} {text : String}
    (htext : column f markPrimaryKey = .ok text) :
    Marks text (f.options.primaryKey.isTrue && markPrimaryKey).toNat := by
  obtain ⟨type, default, htype, hdefault, rfl⟩ := column_eq_ok.1 htext
  rw [constraintParts_eq]
  have hspace : IsCode " " := .of_chars rfl
  have hhead : Marks (f.name.toText ++ " " ++ type.toText) 0 :=
    Stops.plain (Marks.code (marks_zero h.name) hspace) (marks_typeName h.type htype)
  have hrest := marks_constraintParts h (marks_defaultParts h.default hdefault)
  -- The only part that can have a mark is the second one.
  cases f.options.primaryKey.isTrue && markPrimaryKey with
  | false => exact marks_joinWith_cons hspace hhead hrest
  | true =>
    have hkey : Marks "PRIMARY KEY" 1 := ⟨rfl, rfl⟩
    exact (hhead.code hspace).text (marks_joinWith_cons hspace hkey hrest)

/-! ### Tables -/

theorem marks_commentOn {object : String} (hobject : Marks object 0) {comment : Value}
    (hcomment : Lacks "PRIMARY" comment.toText) :
    ∀ s ∈ commentOn object comment, Marks s 0 := by
  intro s hs
  unfold commentOn at hs
  split at hs
  · exact absurd hs List.not_mem_nil
  · rw [List.mem_singleton.1 hs]
    refine (Marks.code ?_ (.of_chars rfl)).toMarks
    refine Stops.plain (Marks.code ?_ (.of_chars rfl)) (marks_literal hcomment)
    exact Stops.plain (.of_chars rfl) hobject

theorem marks_tableComments {t : Table} (h : t.Omits "PRIMARY") :
    ∀ s ∈ tableComments t, Marks s 0 := by
  intro s hs
  rcases List.mem_append.1 hs with hs | hs
  · refine marks_commentOn ?_ h.comment s hs
    exact Stops.plain (.of_chars rfl) (marks_zero h.name)
  · obtain ⟨f, hf, hs⟩ := List.mem_flatMap.1 hs
    refine marks_commentOn ?_ (h.fields f hf).comment s hs
    refine Stops.plain (Marks.code ?_ (.of_chars rfl)) (marks_zero (h.fields f hf).name)
    exact Stops.plain (.of_chars rfl) (marks_zero h.name)

/-- The definition of a primary key of several columns. -/
def keyDefinition (t : Table) : List String :=
  if 1 < t.keyFields.length then
    ["PRIMARY KEY (" ++ joinWith ", " (t.keyFields.map fun f => f.name.toText) ++ ")"]
  else []

/-- The definitions of a table: its columns, and its primary key if this has several of them. -/
theorem tableBody_eq_ok {t : Table} {body : List String} (h : tableBody t = .ok body) :
    ∃ columns, body = columns ++ keyDefinition t ∧ List.Forall₂ (fun f text =>
      column f (decide (t.keyFields.length ≤ 1)) = .ok text) t.fields columns := by
  obtain ⟨columns, hcolumns, h⟩ := bind_eq_ok.1 h
  have hlength : t.primaryKey.length = t.keyFields.length := List.length_map _
  simp only [hlength, ← decide_not, Nat.not_lt] at hcolumns
  refine ⟨columns, ?_, mapM_eq_ok.1 hcolumns⟩
  rw [hlength] at h
  unfold keyDefinition
  split at h
  next hseveral =>
    -- Only texts can be joined, so the names stand there as they are.
    obtain ⟨names, hnames, h⟩ := bind_eq_ok.1 h
    have htexts := map_eq_map_of_mapM hnames (g := id) (k := Value.toText)
      fun _ _ hname => (textOnly_eq_ok hname).symm
    rw [List.map_id, Table.primaryKey, List.map_map] at htexts
    rw [if_pos hseveral, ← Except.ok.inj h, htexts]
    rfl
  next hone =>
    rw [if_neg hone, List.append_nil, ← Except.ok.inj h]

theorem marks_keyDefinition {t : Table} (h : t.Omits "PRIMARY") :
    List.Forall₂ (fun s b => Marks s b.toNat) (keyDefinition t)
      (if 1 < t.keyFields.length then [true] else []) := by
  unfold keyDefinition
  split
  · refine .cons (Marks.code ?_ (.of_chars rfl)).toMarks .nil
    have hnames : ∀ s ∈ t.keyFields.map fun f => f.name.toText, Marks s 0 := by
      refine List.forall_mem_map.2 fun f hf => ?_
      exact marks_zero (h.fields f (List.mem_of_mem_filter hf)).name
    exact Stops.text (.of_chars rfl) (marks_joinWith_zero (.of_chars rfl) hnames)
  · exact .nil

/-- The number of marks: at the only column of the key, or in its definition. -/
theorem count_flags (t : Table) :
    ((t.fields.map fun f => f.options.primaryKey.isTrue && decide (t.keyFields.length ≤ 1)) ++
      if 1 < t.keyFields.length then [true] else []).count true =
      if t.keyFields.length = 0 then 0 else 1 := by
  have hkeys : (t.fields.map fun f => f.options.primaryKey.isTrue).count true =
      t.keyFields.length := by
    rw [List.count_eq_countP, List.countP_map, Table.keyFields, ← List.countP_eq_length_filter]
    simp [Function.comp_def]
  by_cases hseveral : 1 < t.keyFields.length
  · rw [if_pos hseveral, if_neg (by omega), decide_eq_false (by omega)]
    simp [List.count_eq_zero]
  · rw [if_neg hseveral, decide_eq_true (by omega)]
    simp only [Bool.and_true, List.append_nil, hkeys]
    split <;> omega

/-- A column is marked if it is all of the primary key. -/
theorem toNat_mark {t : Table} {f : Field} (hf : f ∈ t.fields) :
    (f.options.primaryKey.isTrue && decide (t.keyFields.length ≤ 1)).toNat =
      if t.keyFields.length = 1 ∧ f.options.primaryKey.isTrue = true then 1 else 0 := by
  cases hkey : f.options.primaryKey.isTrue with
  | false => simp
  | true =>
    have hmem : f ∈ t.keyFields := List.mem_filter.2 ⟨hf, hkey⟩
    have hpos : 0 < t.keyFields.length := List.length_pos_of_mem hmem
    by_cases hone : t.keyFields.length = 1
    · simp [hone]
    · rw [decide_eq_false (by omega), if_neg fun h => hone h.1]
      rfl

/-- The marks of the columns of a table. -/
theorem marks_columns {t : Table} (h : t.Omits "PRIMARY") {columns : List String} {inline : Bool}
    (hcolumns : List.Forall₂ (fun f text => column f inline = .ok text) t.fields columns) :
    List.Forall₂ (fun f text => Marks text (f.options.primaryKey.isTrue && inline).toNat)
      t.fields columns :=
  ((List.forall₂_and_left _ _).2 ⟨h.fields, hcolumns⟩).imp fun _ _ hf => marks_column hf.1 hf.2

theorem marks_tableBody {t : Table} (h : t.Omits "PRIMARY") {columns : List String}
    (hcolumns : List.Forall₂ (fun f text =>
      column f (decide (t.keyFields.length ≤ 1)) = .ok text) t.fields columns) :
    Marks (joinWith ",\n  " (columns ++ keyDefinition t))
      (if t.keyFields.length = 0 then 0 else 1) := by
  have hflags : List.Forall₂ (fun text b => Marks text (Bool.toNat b)) columns
      (t.fields.map fun f =>
        f.options.primaryKey.isTrue && decide (t.keyFields.length ≤ 1)) :=
    List.forall₂_map_right_iff.2 (marks_columns h hcolumns).flip
  rw [← count_flags t]
  exact marks_joinWith (.of_chars rfl) (List.rel_append hflags (marks_keyDefinition h))

/-- **A primary key is rendered once.**  Take a table with texts in which the word `PRIMARY` does
not occur.  It is rendered if all its types can be looked up, no default has too many digits and,
where several columns make up its primary key, texts name these.

The words `PRIMARY KEY` are then in its statements once, or not at all if no field is marked.  There
is one definition for each field.  If one field is marked, the words are in its definition; if
several are, they are in none of these definitions, and a last one has the marked columns in the
order of declaration. -/
theorem count_createTable {t : Table} (h : t.Omits "PRIMARY") :
    (Succeeds (createTable t).outcome ↔
      (∀ f ∈ t.fields, (identifier f.type).isHashable = true ∧ FewDigits f.options.default) ∧
      (1 < t.keyFields.length → ∀ f ∈ t.keyFields, f.name.IsText)) ∧
    ∀ text, (createTable t).outcome = .ok text →
      count "PRIMARY KEY" text = (if t.keyFields.length = 0 then 0 else 1) ∧
      ∃ columns, text = joinWith "\n" (("CREATE TABLE " ++ t.name.toText ++ " (\n  " ++
          joinWith ",\n  " (columns ++ keyDefinition t) ++ "\n);") :: tableComments t) ∧
        List.Forall₂ (fun f definition =>
          column f (decide (t.keyFields.length ≤ 1)) = .ok definition ∧
          count "PRIMARY KEY" definition =
            if t.keyFields.length = 1 ∧ f.options.primaryKey.isTrue = true then 1 else 0)
          t.fields columns := by
  refine ⟨?_, fun text htext => ?_⟩
  · rw [succeeds_createTable_iff]
    simp only [Table.primaryKey, List.length_map, List.forall_mem_map, Table.keyFields]
  · simp only [createTable, Traced.outcome_bind, Traced.outcome_lift, Traced.outcome_note,
      Traced.outcome_pure, ok_bind] at htext
    obtain ⟨body, hbody, htext⟩ := bind_eq_ok.1 htext
    obtain ⟨columns, rfl, hcolumns⟩ := tableBody_eq_ok hbody
    rw [Except.ok.injEq] at htext
    have hopening : Stops ("CREATE TABLE " ++ t.name.toText ++ " (\n  ") 0 :=
      Marks.code (Stops.plain (.of_chars rfl) (marks_zero h.name)) (.of_chars rfl)
    have hstatement := (hopening.text (marks_tableBody h hcolumns)).code (b := "\n);")
      (.of_chars rfl)
    have hline : IsCode "\n" := .of_chars rfl
    have hmarks := marks_joinWith_cons hline hstatement.toMarks (marks_tableComments h)
    have hmembers := (List.forall₂_and_left (p := (· ∈ t.fields)) _ _).2 ⟨fun f hf => hf, hcolumns⟩
    refine ⟨?_, columns, htext.symm, hmembers.imp fun f definition hf => ⟨hf.2, ?_⟩⟩
    · rw [← htext, ← Nat.zero_add (ite _ _ _)]
      exact hmarks.both
    · rw [(marks_column (h.fields f hf.1) hf.2).both, toNat_mark hf.1]

/-- A table with two columns for its key, one of which looks like the words for it. -/
def disguisedKey : Table where
  name := .text "orders"
  fields := [
    { name := .text "PRIMAR", type := .text "Y KEY", options := { primaryKey := .bool true } },
    { name := .text "line", type := .text "integer",
      options := { primaryKey := .int 1, default := .text "PRIM'ARY" } },
    { name := .text "note", type := .text "text",
      options := { comment := .text "The rest of the PRIMAR'Y KEY" } }]

/-- Its text has the words for the key once. -/
theorem count_disguisedKey : ∃ text, (createTable disguisedKey).outcome = .ok text ∧
    count "PRIMARY KEY" text = 1 := by
  have homits : disguisedKey.Omits "PRIMARY" := by
    refine ⟨by decide, by decide, ?_⟩
    intro f hf
    fin_cases hf <;> exact ⟨by decide, by decide, by decide, by decide, by decide, by decide⟩
  obtain ⟨hrendered, hcount⟩ := count_createTable homits
  have hnames : ∀ f ∈ disguisedKey.keyFields, f.name.IsText := by
    intro f hf
    fin_cases hf <;> exact ⟨_, rfl⟩
  have hfields : ∀ f ∈ disguisedKey.fields,
      (identifier f.type).isHashable = true ∧ FewDigits f.options.default := by
    intro f hf
    fin_cases hf <;> exact ⟨by decide +kernel, nofun⟩
  obtain ⟨text, htext⟩ := hrendered.2 ⟨hfields, fun _ => hnames⟩
  exact ⟨text, htext, (hcount text htext).1⟩

end Sql
end SchemaCompiler
