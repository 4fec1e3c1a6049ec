import SchemaCompiler.Proofs.FileSize.Bytes
import SchemaCompiler.Proofs.Migration.Rendering
import SchemaCompiler.Proofs.Schema.Acceptance

/-!
# Which schemas compile

A definition that was read compiles, with three exceptions: a composite type with a column that is
no pair of a name and a type; a bucket with a size limit that looks like one but has no value; and a
whole number, as a default or as a size limit, that has too many digits to be written.

* `Renderable` — what else is expected of the values of a definition, when statements are made;
* `Sql.succeeds_createTable`, … — when the statements for an object are made;
* `HasUnevenColumn`, `HasUnreadableLimit`, `HasLongNumber`, `Unwritable` — the exceptions;
* `Table.spec_of_ofValue`, …, `Schema.parts_of_ofValue` — what is known of an object that was read;
* `compile_of_ofValue` — **a schema that was read compiles but for the exceptions**, and then to the
  text of every one of its blocks;
* `compile_counters` — a default alone can keep a schema from being compiled.
-/

namespace SchemaCompiler

open Value

/-! ### Making statements -/

namespace Sql

theorem succeeds_typeName {v : Value} (h : v.IsText) : Succeeds (typeName v) := by
  obtain ⟨s, rfl⟩ := h
  exact succeeds_ok _

/-- A type has a name if it can be looked up. -/
theorem succeeds_typeName_iff {v : Value} :
    Succeeds (typeName v) ↔ (identifier v).isHashable = true := by
  unfold typeName
  split
  next s hs =>
    rw [hs]
    exact iff_of_true (succeeds_ok _) rfl
  next =>
    split
    next hkey => exact iff_of_true (succeeds_ok _) hkey
    next hkey => exact iff_of_false (not_succeeds_error _) hkey

theorem succeeds_textOnly_iff {misuse : Misuse} {v : Value} :
    Succeeds (v.textOnly misuse) ↔ v.IsText := by
  cases v with
  | text s => exact iff_of_true (succeeds_ok s) ⟨s, rfl⟩
  | _ => exact iff_of_false (not_succeeds_error _) nofun

/-- The definitions of a table are made if all its types have names and no default too many digits,
and texts name the columns of a key that has several. -/
theorem succeeds_tableBody_iff {t : Table} :
    Succeeds (tableBody t) ↔
      (∀ f ∈ t.fields, (identifier f.type).isHashable = true ∧ FewDigits f.options.default) ∧
      (1 < t.primaryKey.length → ∀ name ∈ t.primaryKey, name.IsText) := by
  unfold tableBody
  refine (succeeds_bind (P := 1 < t.primaryKey.length → ∀ name ∈ t.primaryKey, name.IsText)
    fun columns _ => ?_).trans (and_congr_left' ?_)
  · split
    next hcomposite =>
      rw [succeeds_bind_pure, succeeds_mapM]
      simp only [succeeds_textOnly_iff]
      exact ⟨fun hnames _ => hnames, fun hnames => hnames hcomposite⟩
    next hcomposite => exact iff_of_true (succeeds_ok _) fun h => absurd h hcomposite
  · rw [succeeds_mapM]
    simp only [succeeds_column, succeeds_typeName_iff]

theorem succeeds_createTable_iff {t : Table} :
    Succeeds (createTable t).outcome ↔
      (∀ f ∈ t.fields, (identifier f.type).isHashable = true ∧ FewDigits f.options.default) ∧
      (1 < t.primaryKey.length → ∀ name ∈ t.primaryKey, name.IsText) := by
  simp only [createTable, Traced.outcome_bind, Traced.outcome_lift, Traced.outcome_note,
    Traced.outcome_pure, ok_bind]
  exact succeeds_bind_pure.trans succeeds_tableBody_iff

theorem succeeds_createTable {t : Table} (h : ∀ f ∈ t.fields, f.name.IsText ∧ f.type.IsText) :
    Succeeds (createTable t).outcome ↔ ∀ f ∈ t.fields, FewDigits f.options.default := by
  have hkey : ∀ name ∈ t.primaryKey, name.IsText :=
    List.forall_mem_map.2 fun f hf => (h f (List.mem_of_mem_filter hf)).1
  rw [succeeds_createTable_iff, and_iff_left fun _ => hkey]
  exact forall₂_congr fun f hf =>
    and_iff_right (succeeds_typeName_iff.1 (succeeds_typeName (h f hf).2))

theorem succeeds_argumentList {args : List Value} (h : ∀ a ∈ args, a.IsText) (position : Nat) :
    Succeeds (argumentList position args) := by
  induction args generalizing position with
  | nil => exact succeeds_ok []
  | cons a args ih =>
    rw [List.forall_mem_cons] at h
    refine (succeeds_bind fun type _ => iff_true_intro ?_).2 ⟨succeeds_typeName h.1, trivial⟩
    exact succeeds_bind_pure.2 (ih h.2 (position + 1))

theorem succeeds_createFunction {f : Function} (hargs : ∀ a ∈ f.args, a.IsText)
    (htype : f.returnType.IsText) : Succeeds (createFunction f) := by
  refine (succeeds_bind fun args _ => iff_true_intro ?_).2 ⟨succeeds_argumentList hargs 1, trivial⟩
  exact succeeds_bind_pure.2 (succeeds_typeName htype)

theorem succeeds_createView {v : View} (h : v.query.IsText) : Succeeds (createView v) := by
  obtain ⟨s, hs⟩ := h
  rw [createView, hs]
  exact succeeds_ok _

/-- A column of a composite type is written if it has two parts. -/
theorem succeeds_compositeColumn {parts : List Value} (h : ∀ v ∈ parts, v.IsText) :
    Succeeds (compositeColumn (.tuple parts)) ↔ parts.length = 2 := by
  have hitems : (Value.tuple parts).items = .ok parts := rfl
  rw [compositeColumn, hitems, ok_bind]
  split
  next name type =>
    have htype : type.IsText := h type (by simp)
    exact iff_of_true (succeeds_bind_pure.2 (succeeds_typeName htype)) rfl
  next hother =>
    refine iff_of_false (not_succeeds_error _) fun hlength => ?_
    obtain ⟨name, type, rfl⟩ := List.length_eq_two.1 hlength
    exact hother name type rfl

/-- A limit is written if it can be read and has not too many digits; one that is a text never
has. -/
theorem succeeds_fileSizeLimit (limit : Value) :
    Succeeds (fileSizeLimit limit).outcome ↔
      Succeeds (FileSize.parse limit) ∧ FewDigits limit := by
  cases limit with
  | null => exact iff_of_true (succeeds_ok _) ⟨succeeds_ok _, nofun⟩
  | int n =>
    rw [fewDigits_int, ← succeeds_wholeText]
    exact (and_iff_right (succeeds_ok (some n))).symm
  | text s =>
    have hgiven : (Value.text s).isNull = false := rfl
    rw [and_iff_left (show FewDigits (.text s) from nofun), fileSizeLimit, hgiven,
      if_neg Bool.false_ne_true, Traced.outcome_bind, Traced.outcome_lift]
    refine (succeeds_bind fun size hsize => iff_true_intro ?_).trans (and_iff_left trivial)
    cases size with
    | none => exact succeeds_ok _
    | some size => exact succeeds_wholeText.2 (FileSize.natAbs_lt_of_parse hsize)
  | _ => exact iff_of_true (succeeds_ok _) ⟨succeeds_ok _, nofun⟩

theorem succeeds_mimeTypes {types : Value} (h : types = .null ∨ IsListing types) :
    Succeeds (mimeTypes types) := by
  unfold mimeTypes
  split
  next => exact succeeds_ok _
  next hnull =>
    split
    next =>
      obtain ⟨vs, hvs⟩ := h.resolve_left fun heq => hnull (heq ▸ rfl)
      rw [hvs]
      exact succeeds_ok _
    next => exact succeeds_ok _

theorem succeeds_upsertBucket {b : StorageBucket}
    (h : b.options.mimeTypes = .null ∨ IsListing b.options.mimeTypes) :
    Succeeds (upsertBucket b).outcome ↔
      Succeeds (FileSize.parse b.options.fileSizeLimit) ∧ FewDigits b.options.fileSizeLimit := by
  simp only [upsertBucket, Traced.outcome_bind, Traced.outcome_lift, Traced.outcome_pure]
  rw [← succeeds_fileSizeLimit]
  refine (succeeds_bind fun limit _ => iff_true_intro ?_).trans (and_iff_left trivial)
  exact succeeds_bind_pure.2 (succeeds_mimeTypes h)

end Sql

theorem RowSecurity.succeeds_createPolicies {t : Table}
    (h : ∀ p ∈ t.policies, p.description.IsText) : Succeeds (createPolicies t) := by
  refine succeeds_bind_pure.2 (succeeds_mapM.2 fun p hp => succeeds_bind_pure.2 ?_)
  obtain ⟨s, hs⟩ := h p hp
  unfold policyName
  split
  · exact succeeds_ok _
  · rw [derivedName, hs]
    exact succeeds_ok _

/-! ### Values for statements -/

/-- What a value holds one after the other, if it does. -/
def Value.itemList (v : Value) : List Value :=
  match v.items with
  | .ok vs => vs
  | .error _ => []

/-- The columns of a composite type, each as the list of its parts. -/
def Value.columnsOf : Value → List (List Value)
  | .mapping es => es.map fun e => [e.1, e.2]
  | v => v.itemList.map itemList

/-- A text, a number, a truth value or null. -/
def Value.IsScalar : Value → Prop
  | .null | .bool _ | .int _ | .float _ | .decimal _ | .text _ => True
  | _ => False

/-- A text, or what holds texts one after the other, or null. -/
def Value.AreTexts (v : Value) : Prop :=
  IsTextOrNull v ∨ ∃ vs, v.items = .ok vs ∧ ∀ item ∈ vs, item.IsText

/-- The options of a kind of definition that are texts and written as they are. -/
def RecordKind.writtenOptions : RecordKind → List String
  | .field => ["references", "generated", "comment"]
  | .index => ["name", "using", "where", "comment"]
  | .policy => ["name", "with_check"]
  | .trigger => ["when"]
  | .table | .view => ["comment"]
  | .function => ["language"]
  | _ => []

/-- A definition with values that statements can be made of.  The options that are written are texts
or null, apart from the default of a field, which may be a number or a truth value, and from the
size limit of a bucket, which may be a whole number.  The fields of an index, the events of a
trigger, the types of the arguments of a function, the roles of a policy, the labels and the columns
of a custom type and the content types of a bucket are texts.  A policy is described by a text, and
the base type and the constraint of a custom type are texts or null. -/
structure Renderable (kind : RecordKind) (d : Value) : Prop where
  written : ∀ name ∈ kind.writtenOptions, IsTextOrNull (d.optionOf name)
  default : kind = .field → (d.optionOf "default").IsScalar
  listed : ∀ key ∈ kind.grammar.lists, (d.settingOr key .null).AreTexts
  description : kind = .policy → (d.settingOr "description" (.text "")).IsText
  roles : kind = .policy → (d.optionOf "for_").AreTexts
  arguments : kind = .function → ∀ a ∈ d.listed "args", a.IsText
  labels : kind = .customType → (d.settingOr "values" .null).AreTexts
  baseType : kind = .customType → IsTextOrNull (d.settingOr "base_type" .null)
  constraint : kind = .customType → IsTextOrNull (d.settingOr "constraint" .null)
  columns : kind = .customType →
    ∀ column ∈ (d.settingOr "fields" .null).columnsOf, ∀ v ∈ column, v.IsText
  limit : kind = .storageBucket → IsTextOrNull (d.optionOf "file_size_limit") ∨
    ∃ n, d.optionOf "file_size_limit" = .int n
  mimeTypes : kind = .storageBucket → (d.optionOf "allowed_mime_types").AreTexts

/-- A composite type with a column that has not exactly two parts. -/
def HasUnevenColumn (d : Value) : Prop :=
  IsWord "composite" (d.settingOr "kind" .null) ∧
    ∃ column ∈ (d.settingOr "fields" .null).columnsOf, column.length ≠ 2

/-- A bucket with a text for its size limit that cannot be converted to a number. -/
def HasUnreadableLimit (d : Value) : Prop :=
  ∃ s fault, d.optionOf "file_size_limit" = .text s ∧ FileSize.parse (.text s) = .error fault

/-- An option that is a whole number with too many digits to be written. -/
def HasLongNumber (option : String) (d : Value) : Prop :=
  ∃ n : Int, d.optionOf option = .int n ∧ 10 ^ Text.maxDigits ≤ n.natAbs

/-- What keeps a schema that was read from being compiled. -/
inductive Unwritable (d : Value) : Prop
  | unevenColumn {p : Value} (hp : p ∈ d.listed "custom_types") (h : HasUnevenColumn p)
  | unreadableLimit {p : Value} (hp : p ∈ d.listed "storage_buckets") (h : HasUnreadableLimit p)
  | longLimit {p : Value} (hp : p ∈ d.listed "storage_buckets")
    (h : HasLongNumber "file_size_limit" p)
  | longDefault {p q : Value} (hp : p ∈ d.listed "tables") (hq : q ∈ p.listed "fields")
    (h : HasLongNumber "default" q)

theorem fewDigits_optionOf {d : Value} {option : String} :
    Sql.FewDigits (d.optionOf option) ↔ ¬HasLongNumber option d := by
  simp only [Sql.FewDigits, HasLongNumber, not_exists, not_and, not_le]

theorem Value.AreTexts.isListing {v : Value} (h : v.AreTexts) : v = .null ∨ IsListing v := by
  rcases h with htext | ⟨vs, hvs, -⟩
  · exact IsTextOrNull.isListing htext
  · exact .inr ⟨vs, hvs⟩

/-! ### Objects that were read -/

section Read

variable {d : Value}

theorem Typed.text {kind : RecordKind} (ht : Typed kind d) {key owner : String}
    (hkey : key ∈ kind.grammar.texts) {found : Value} (h : d.require key owner = .ok found) :
    found.IsText := by
  have htext := ht.texts key hkey
  rw [settingOr_of_require h] at htext
  exact htext.resolve_left (require_eq_ok h).2

theorem FieldOptions.default_of_ofSettings {given : String → Option Value} {o : FieldOptions}
    (h : OptionSet.ofSettings given = .ok o) : o.default = (given "default").getD .null := by
  obtain ⟨onDelete, -, h⟩ := bind_eq_ok.1 h
  obtain ⟨onUpdate, -, h⟩ := bind_eq_ok.1 h
  rw [← Except.ok.inj h]

theorem Field.spec_of_ofValue (ht : Typed .field d) {f : Field} (h : Field.ofValue d = .ok f) :
    f.name.IsText ∧ f.type.IsText ∧ f.options.default = d.optionOf "default" := by
  obtain ⟨name, hname, h⟩ := bind_eq_ok.1 h
  obtain ⟨type, htype, h⟩ := bind_eq_ok.1 h
  obtain ⟨options, hoptions, h⟩ := bind_eq_ok.1 h
  have hgiven := ((readOptions_eq_ok_iff ht.mapping (ht.options nofun)).1 hoptions).2
  rw [← Except.ok.inj h]
  exact ⟨ht.text (by simp [RecordKind.grammar]) hname,
    ht.text (by simp [RecordKind.grammar]) htype, FieldOptions.default_of_ofSettings hgiven⟩

theorem Policy.spec_of_ofValue (hr : Renderable .policy d) {p : Policy}
    (h : Policy.ofValue d = .ok p) : p.description.IsText := by
  obtain ⟨description, hdescription, h⟩ := bind_eq_ok.1 h
  obtain ⟨action, -, h⟩ := bind_eq_ok.1 h
  obtain ⟨condition, -, h⟩ := bind_eq_ok.1 h
  obtain ⟨options, -, h⟩ := bind_eq_ok.1 h
  obtain ⟨found, -, h⟩ := bind_eq_ok.1 h
  have htext := hr.description rfl
  rw [settingD_eq_ok hdescription] at htext
  cases found with
  | none => cases h
  | some m =>
    dsimp only at h
    split at h
    next =>
      rw [← Except.ok.inj h]
      exact htext
    next => cases h

theorem Function.spec_of_ofValue (ht : Typed .function d) (hr : Renderable .function d)
    {f : Function} (h : Function.ofValue d = .ok f) :
    (∀ a ∈ f.args, a.IsText) ∧ f.returnType.IsText := by
  obtain ⟨name, -, h⟩ := bind_eq_ok.1 h
  obtain ⟨setting, hsetting, h⟩ := bind_eq_ok.1 h
  obtain ⟨args, hargs, h⟩ := bind_eq_ok.1 h
  obtain ⟨returnType, htype, h⟩ := bind_eq_ok.1 h
  obtain ⟨body, -, h⟩ := bind_eq_ok.1 h
  obtain ⟨options, -, h⟩ := bind_eq_ok.1 h
  have hlisted : d.listed "args" = args := listed_of_items ((settingD_eq_ok hsetting).symm ▸ hargs)
  rw [← Except.ok.inj h]
  refine ⟨?_, ht.text (by simp [RecordKind.grammar]) htype⟩
  have htexts := hr.arguments rfl
  rwa [hlisted] at htexts

theorem View.spec_of_ofValue (ht : Typed .view d) {v : View} (h : View.ofValue d = .ok v) :
    v.query.IsText := by
  obtain ⟨name, -, h⟩ := bind_eq_ok.1 h
  obtain ⟨query, hquery, h⟩ := bind_eq_ok.1 h
  obtain ⟨options, -, h⟩ := bind_eq_ok.1 h
  rw [← Except.ok.inj h]
  exact ht.text (by simp [RecordKind.grammar]) hquery

theorem CustomType.columns_eq_ok {fields : Value} {columns : List Value}
    (h : CustomType.columns fields = .ok columns) : columns = fields.columnsOf.map .tuple := by
  unfold CustomType.columns at h
  split at h
  next es =>
    rw [← Except.ok.inj h, columnsOf, List.map_map]
    rfl
  next hother =>
    obtain ⟨vs, hvs, h⟩ := bind_eq_ok.1 h
    have hitems : fields.columnsOf = vs.map itemList := by
      have hlist : fields.itemList = vs := by rw [itemList, hvs]
      unfold columnsOf
      split
      next es => exact absurd rfl (hother es)
      next => rw [hlist]
    have hcolumns := map_eq_map_of_mapM (g := id) (k := fun v => .tuple v.itemList) h ?_
    · rw [List.map_id] at hcolumns
      rw [hcolumns, hitems, List.map_map]
      rfl
    · intro v column hcolumn
      obtain ⟨parts, hparts, hcolumn⟩ := bind_eq_ok.1 hcolumn
      rw [itemList, hparts, ← Except.ok.inj hcolumn]
      rfl

/-- A custom type that was read has what its kind is written with. -/
theorem CustomType.spec_of_ofValue (ht : Typed .customType d) (hr : Renderable .customType d)
    {t : CustomType} (h : CustomType.ofValue d = .ok t) :
    ∃ m, t.kind = some m ∧ IsWord (Vocabulary.label m) (d.settingOr "kind" .null) ∧
      (m = .enum → IsListing t.values) ∧
      (m = .composite →
        t.fields = .list ((d.settingOr "fields" .null).columnsOf.map .tuple)) ∧
      (m = .domain → t.baseType.IsText) := by
  obtain ⟨name, -, h⟩ := bind_eq_ok.1 h
  obtain ⟨kind, hkind, h⟩ := bind_eq_ok.1 h
  obtain ⟨values, hvalues, h⟩ := bind_eq_ok.1 h
  obtain ⟨fields, hfields, h⟩ := bind_eq_ok.1 h
  obtain ⟨baseType, hbase, h⟩ := bind_eq_ok.1 h
  obtain ⟨constraint, -, h⟩ := bind_eq_ok.1 h
  obtain ⟨found, hfound, h⟩ := bind_eq_ok.1 h
  obtain ⟨s, rfl⟩ := ht.text (by simp [RecordKind.grammar]) hkind
  obtain ⟨m, rfl, hm⟩ := read_text_eq_ok.1 hfound
  have hlabel : Vocabulary.label m = Text.lower s := by simpa using List.find?_some hm
  have hlabels := ht.labels rfl
  have hbaseType := hr.baseType rfl
  rw [settingD_eq_ok hvalues] at hlabels
  rw [settingD_eq_ok hbase] at hbaseType
  rw [settingOr_of_require hkind, settingD_eq_ok hfields]
  refine ⟨m, ?_⟩
  rw [isWord_text]
  cases m with
  | enum =>
    dsimp only at h
    split at h
    next hgiven =>
      rw [← Except.ok.inj h]
      have hlisting := hlabels.resolve_left (by rintro rfl; cases hgiven)
      exact ⟨rfl, hlabel.symm, fun _ => hlisting, fun h => absurd h (by decide),
        fun h => absurd h (by decide)⟩
    next => cases h
  | composite =>
    dsimp only at h
    split at h
    next =>
      obtain ⟨columns, hcolumns, h⟩ := bind_eq_ok.1 h
      rw [← Except.ok.inj h, CustomType.columns_eq_ok hcolumns]
      exact ⟨rfl, hlabel.symm, fun h => absurd h (by decide), fun _ => rfl,
        fun h => absurd h (by decide)⟩
    next => cases h
  | domain =>
    dsimp only at h
    split at h
    next => cases h
    next hgiven =>
      rw [← Except.ok.inj h]
      have htext := hbaseType.resolve_left (by rintro rfl; exact hgiven rfl)
      exact ⟨rfl, hlabel.symm, fun h => absurd h (by decide), fun h => absurd h (by decide),
        fun _ => htext⟩

/-- **A custom type that was read is written**, unless it has an uneven column. -/
theorem CustomType.succeeds_createType (ht : Typed .customType d) (hr : Renderable .customType d)
    {t : CustomType} (h : CustomType.ofValue d = .ok t) :
    Succeeds (Sql.createType t) ↔ ¬HasUnevenColumn d := by
  obtain ⟨m, hkind, hword, hvalues, hfields, hbase⟩ := CustomType.spec_of_ofValue ht hr h
  -- The rule is about the word for the kind, the statement about the kind that was read.
  have huneven : HasUnevenColumn d → m = .composite := by
    rintro ⟨hcomposite, -⟩
    obtain ⟨s, hs, hlower⟩ := hword
    rw [hs, isWord_text, hlower] at hcomposite
    cases m with
    | composite => rfl
    | enum => exact absurd hcomposite (by decide)
    | domain => exact absurd hcomposite (by decide)
  unfold Sql.createType
  rw [hkind]
  cases m with
  | enum =>
    obtain ⟨vs, hvs⟩ := hvalues rfl
    refine iff_of_true ?_ fun h => absurd (huneven h) (by decide)
    dsimp only
    rw [hvs]
    exact succeeds_ok _
  | composite =>
    have htexts := hr.columns rfl
    have hcomposite : IsWord "composite" (d.settingOr "kind" .null) := hword
    have hitems : ∀ vs, (Value.list vs).items = .ok vs := fun _ => rfl
    dsimp only
    rw [hfields rfl, hitems, ok_bind, succeeds_bind_pure, succeeds_mapM, List.forall_mem_map,
      HasUnevenColumn, and_iff_right hcomposite]
    simp only [not_exists, not_and, ne_eq, not_not]
    exact forall₂_congr fun column hcolumn => Sql.succeeds_compositeColumn (htexts column hcolumn)
  | domain =>
    refine iff_of_true ?_ fun h => absurd (huneven h) (by decide)
    exact succeeds_bind_pure.2 (Sql.succeeds_typeName (hbase rfl))

/-- **A bucket that was read is written**, unless its size limit cannot be read or is too long. -/
theorem StorageBucket.succeeds_upsertBucket (ht : Typed .storageBucket d)
    (hr : Renderable .storageBucket d) {b : StorageBucket} (h : StorageBucket.ofValue d = .ok b) :
    Succeeds (Sql.upsertBucket b).outcome ↔
      ¬HasUnreadableLimit d ∧ ¬HasLongNumber "file_size_limit" d := by
  obtain ⟨name, -, h⟩ := bind_eq_ok.1 h
  obtain ⟨policies, -, h⟩ := bind_eq_ok.1 h
  obtain ⟨options, hoptions, h⟩ := bind_eq_ok.1 h
  have hgiven := ((readOptions_eq_ok_iff ht.mapping (ht.options nofun)).1 hoptions).2
  have hlimit : options.fileSizeLimit = d.optionOf "file_size_limit" := by
    rw [← Except.ok.inj hgiven]
    rfl
  have htypes : options.mimeTypes = d.optionOf "allowed_mime_types" := by
    rw [← Except.ok.inj hgiven]
    rfl
  rw [← Except.ok.inj h, Sql.succeeds_upsertBucket (htypes ▸ (hr.mimeTypes rfl).isListing), hlimit,
    fewDigits_optionOf]
  refine and_congr_left' ?_
  unfold HasUnreadableLimit
  cases d.optionOf "file_size_limit" with
  | text s =>
    cases hparse : FileSize.parse (.text s) with
    | ok size => exact iff_of_true (succeeds_ok _) (by simp [hparse])
    | error fault => exact iff_of_false (not_succeeds_error _) (by simp [hparse])
  | _ => exact iff_of_true ⟨_, rfl⟩ nofun

theorem Table.spec_of_ofValue (ht : Everywhere Typed .table d) (hr : Everywhere Renderable .table d)
    {t : Table} (h : Table.ofValue d = .ok t) :
    (∀ f ∈ t.fields, f.name.IsText ∧ f.type.IsText) ∧
      ((∀ f ∈ t.fields, Sql.FewDigits f.options.default) ↔
        ∀ q ∈ d.listed "fields", ¬HasLongNumber "default" q) ∧
      ∀ p ∈ t.policies, p.description.IsText := by
  obtain ⟨-, hfields, hpolicies⟩ := Table.parts_of_ofValue h
  have hspec : ∀ q ∈ d.listed "fields", ∀ f, Field.ofValue q = .ok f →
      f.name.IsText ∧ f.type.IsText ∧ f.options.default = q.optionOf "default" := fun q hq f hread =>
    Field.spec_of_ofValue (ht.part (by simp [RecordKind.grammar]) hq).self hread
  refine ⟨?_, forall_results_iff hfields fun q hq f hread => ?_, ?_⟩
  · intro f hf
    obtain ⟨q, hq, hread⟩ := exists_item_of_mem hfields hf
    exact ⟨(hspec q hq f hread).1, (hspec q hq f hread).2.1⟩
  · rw [(hspec q hq f hread).2.2, fewDigits_optionOf]
  · intro policy hpolicy
    obtain ⟨p, hp, hread⟩ := exists_item_of_mem hpolicies hpolicy
    exact Policy.spec_of_ofValue (hr.part (by simp [RecordKind.grammar]) hp).self hread

end Read

/-- All blocks of a table that was read are written, unless a default is too long: only the first of
them can fail. -/
theorem Table.succeeds_render {d : Value} (ht : Everywhere Typed .table d)
    (hr : Everywhere Renderable .table d) {t : Table} (h : Table.ofValue d = .ok t) :
    (∀ b ∈ t.statements, Succeeds b.render.outcome) ↔
      ∀ q ∈ d.listed "fields", ¬HasLongNumber "default" q := by
  obtain ⟨hfields, hdefaults, hpolicies⟩ := Table.spec_of_ofValue ht hr h
  rw [← hdefaults, ← Sql.succeeds_createTable hfields, Table.statements, List.forall_mem_cons]
  refine and_iff_left fun b hb => ?_
  simp only [List.mem_append] at hb
  rcases hb with ((hb | hb) | hb) | hb
  all_goals
    split at hb
    all_goals first
      | exact absurd hb List.not_mem_nil
      | rw [List.mem_singleton.1 hb]
  · exact succeeds_ok _
  · show Succeeds (Statement.renderPolicies t).outcome
    rw [Statement.outcome_renderPolicies]
    exact RowSecurity.succeeds_createPolicies hpolicies
  · exact succeeds_ok _
  · exact succeeds_ok _

/-- All blocks of a bucket that was read are written, unless its size limit cannot be read or is too
long: only the first of them can fail. -/
theorem StorageBucket.succeeds_render {d : Value} (ht : Typed .storageBucket d)
    (hr : Renderable .storageBucket d) {u : StorageBucket} (h : StorageBucket.ofValue d = .ok u) :
    (∀ b ∈ u.statements, Succeeds b.render.outcome) ↔
      ¬HasUnreadableLimit d ∧ ¬HasLongNumber "file_size_limit" d := by
  rw [← StorageBucket.succeeds_upsertBucket ht hr h, StorageBucket.statements,
    List.forall_mem_cons, List.forall_mem_map]
  exact and_iff_left fun p _ => succeeds_ok _

/-- **All blocks of a schema that was read are written**, but for the exceptions. -/
theorem Schema.succeeds_renderTexts {d : Value} (ht : Everywhere Typed .schema d)
    (hr : Everywhere Renderable .schema d) {s : Schema} (h : Schema.ofValue d = .ok s) :
    Succeeds (renderTexts s.statements) ↔ ¬Unwritable d := by
  obtain ⟨htables, hfunctions, hviews, hbuckets, htypes⟩ := Schema.parts_of_ofValue h
  have hcustom : (∀ t ∈ s.customTypes, Succeeds (Sql.createType t)) ↔
      ∀ p ∈ d.listed "custom_types", ¬HasUnevenColumn p :=
    forall_results_iff htypes fun p hp _ hread =>
      CustomType.succeeds_createType (ht.part (by simp [RecordKind.grammar]) hp).self
        (hr.part (by simp [RecordKind.grammar]) hp).self hread
  have hbucket : (∀ u ∈ s.storageBuckets, ∀ b ∈ u.statements, Succeeds b.render.outcome) ↔
      ∀ p ∈ d.listed "storage_buckets",
        ¬HasUnreadableLimit p ∧ ¬HasLongNumber "file_size_limit" p :=
    forall_results_iff hbuckets fun p hp _ hread =>
      StorageBucket.succeeds_render (ht.part (by simp [RecordKind.grammar]) hp).self
        (hr.part (by simp [RecordKind.grammar]) hp).self hread
  have htable : (∀ t ∈ s.tables, ∀ b ∈ t.statements, Succeeds b.render.outcome) ↔
      ∀ p ∈ d.listed "tables", ∀ q ∈ p.listed "fields", ¬HasLongNumber "default" q :=
    forall_results_iff htables fun p hp _ hread =>
      Table.succeeds_render (ht.part (by simp [RecordKind.grammar]) hp)
        (hr.part (by simp [RecordKind.grammar]) hp) hread
  -- The blocks of all other objects are written in any case.
  have hfunction : ∀ f ∈ s.functions, Succeeds (Sql.createFunction f) := by
    intro f hmem
    obtain ⟨p, hp, hread⟩ := exists_item_of_mem hfunctions hmem
    obtain ⟨hargs, htype⟩ := Function.spec_of_ofValue
      (ht.part (by simp [RecordKind.grammar]) hp).self
      (hr.part (by simp [RecordKind.grammar]) hp).self hread
    exact Sql.succeeds_createFunction hargs htype
  have hview : ∀ v ∈ s.views, Succeeds (Sql.createView v) := by
    intro v hmem
    obtain ⟨p, hp, hread⟩ := exists_item_of_mem hviews hmem
    exact Sql.succeeds_createView
      (View.spec_of_ofValue (ht.part (by simp [RecordKind.grammar]) hp).self hread)
  have hblocks : Succeeds (renderTexts s.statements) ↔
      ((((∀ t ∈ s.customTypes, Succeeds (Sql.createType t)) ∧
        ∀ t ∈ s.tables, ∀ b ∈ t.statements, Succeeds b.render.outcome) ∧
        ∀ f ∈ s.functions, Succeeds (Sql.createFunction f)) ∧
        ∀ v ∈ s.views, Succeeds (Sql.createView v)) ∧
        ∀ u ∈ s.storageBuckets, ∀ b ∈ u.statements, Succeeds b.render.outcome := by
    rw [renderTexts, succeeds_mapM]
    simp only [Schema.statements, List.forall_mem_append, List.forall_mem_map,
      List.forall_mem_flatMap, Statement.render, Traced.outcome_lift]
  rw [hblocks, and_iff_left hview, and_iff_left hfunction, hcustom, htable, hbucket]
  constructor
  · rintro ⟨⟨heven, hshort⟩, hlimits⟩ (⟨hp, h⟩ | ⟨hp, h⟩ | ⟨hp, h⟩ | ⟨hp, hq, h⟩)
    · exact heven _ hp h
    · exact (hlimits _ hp).1 h
    · exact (hlimits _ hp).2 h
    · exact hshort _ hp _ hq h
  · intro h
    exact ⟨⟨fun p hp hp' => h (.unevenColumn hp hp'),
        fun p hp q hq hq' => h (.longDefault hp hq hq')⟩,
      fun p hp => ⟨fun hp' => h (.unreadableLimit hp hp'), fun hp' => h (.longLimit hp hp')⟩⟩

/-- A schema that was read fails to compile for the exceptions. -/
theorem exists_error_iff {d : Value} (ht : Everywhere Typed .schema d)
    (hr : Everywhere Renderable .schema d) {s : Schema} (h : Schema.ofValue d = .ok s) :
    (∃ fault, renderTexts s.statements = .error fault) ↔ Unwritable d := by
  rw [← not_iff_not, ← Schema.succeeds_renderTexts ht hr h]
  cases renderTexts s.statements with
  | ok texts => exact iff_of_true nofun (succeeds_ok texts)
  | error fault => exact iff_of_false (not_not.2 ⟨fault, rfl⟩) (not_succeeds_error fault)

theorem outcome_compile_singleton (s : Schema) :
    (compile [s]).outcome = renderTexts s.statements := by
  rw [outcome_compile, List.flatMap_singleton]

/-- **A schema that was read compiles**, except where a composite type has an uneven column, a
bucket a size limit that cannot be read, or a field or a bucket a whole number for its default or
its size limit that has too many digits to be written; and then each of its blocks has a text. -/
theorem compile_of_ofValue {d : Value} (ht : Everywhere Typed .schema d)
    (hr : Everywhere Renderable .schema d) {s : Schema} (h : Schema.ofValue d = .ok s) :
    ((∃ fault, (compile [s]).outcome = .error fault) ↔ Unwritable d) ∧
    (¬Unwritable d →
      ∃ texts, (compile [s]).outcome = .ok texts ∧
        List.Forall₂ (fun b text => b.render.outcome = .ok text) s.statements texts) := by
  rw [outcome_compile_singleton]
  refine ⟨exists_error_iff ht hr h, fun hwritable => ?_⟩
  obtain ⟨texts, htexts⟩ := (Schema.succeeds_renderTexts ht hr h).2 hwritable
  exact ⟨texts, htexts, mapM_eq_ok.1 htexts⟩

/-- A field, a table or a schema without options has nothing to be written that could be of a wrong
type. -/
theorem renderable_of_bare {kind : RecordKind}
    (hkind : kind = .field ∨ kind = .table ∨ kind = .schema) {d : Value}
    (hwritten : ∀ name ∈ kind.writtenOptions, IsTextOrNull (d.optionOf name))
    (hdefault : (d.optionOf "default").IsScalar) : Renderable kind d := by
  obtain rfl | rfl | rfl := hkind
  all_goals
    exact {
      written := hwritten
      default := fun _ => hdefault
      listed := List.forall_mem_nil _
      description := nofun
      roles := nofun
      arguments := nofun
      labels := nofun
      baseType := nofun
      constraint := nofun
      columns := nofun
      limit := nofun
      mimeTypes := nofun }

theorem tableDefinition_renderable (name : String) {fields : List Value}
    (hfields : ∀ f ∈ fields, Everywhere Renderable .field f) :
    Everywhere Renderable .table (tableDefinition name fields) := by
  refine everywhere_iff.2 ⟨renderable_of_bare (by decide) (fun _ _ => Or.inl rfl) trivial, ?_⟩
  simp only [RecordKind.grammar, List.forall_mem_cons]
  exact ⟨hfields, List.forall_mem_nil _, List.forall_mem_nil _, List.forall_mem_nil _,
    List.forall_mem_nil _, List.forall_mem_nil _⟩

theorem schemaDefinition_renderable {tables types : List Value}
    (htables : ∀ t ∈ tables, Everywhere Renderable .table t)
    (htypes : ∀ t ∈ types, Everywhere Renderable .customType t) :
    Everywhere Renderable .schema (schemaDefinition tables types) := by
  refine everywhere_iff.2 ⟨renderable_of_bare (by decide) (List.forall_mem_nil _) trivial, ?_⟩
  simp only [RecordKind.grammar, List.forall_mem_cons]
  exact ⟨htables, List.forall_mem_nil _, List.forall_mem_nil _, List.forall_mem_nil _, htypes,
    List.forall_mem_nil _⟩

theorem itemsDefinition_renderable : Everywhere Renderable .table itemsDefinition :=
  tableDefinition_renderable "items" <| List.forall_mem_singleton.2 <|
    (everywhere_iff_self rfl).2 (renderable_of_bare (by decide) (fun _ _ => Or.inl rfl) trivial)

theorem stateDefinition_renderable : Everywhere Renderable .customType stateDefinition := by
  have hlabels : ∀ v ∈ [Value.text "new", .text "used"], v.IsText :=
    List.forall_mem_cons.2 ⟨⟨_, rfl⟩, List.forall_mem_singleton.2 ⟨_, rfl⟩⟩
  exact (everywhere_iff_self rfl).2
    { written := List.forall_mem_nil _
      default := nofun
      listed := List.forall_mem_nil _
      description := nofun
      roles := nofun
      arguments := nofun
      labels := fun _ => Or.inr ⟨_, rfl, hlabels⟩
      baseType := fun _ => Or.inl rfl
      constraint := fun _ => Or.inl rfl
      columns := fun _ => List.forall_mem_nil _
      limit := nofun
      mimeTypes := nofun }

theorem shopDefinition_renderable : Everywhere Renderable .schema shopDefinition :=
  schemaDefinition_renderable (List.forall_mem_singleton.2 itemsDefinition_renderable)
    (List.forall_mem_singleton.2 stateDefinition_renderable)

/-- The shop compiles: its type is no composite, its one field has no default, and it has no
buckets. -/
theorem compile_shop : ∃ s texts, Schema.ofValue shopDefinition = .ok s ∧
    (compile [s]).outcome = .ok texts ∧
    List.Forall₂ (fun b text => b.render.outcome = .ok text) s.statements texts := by
  obtain ⟨s, hs⟩ := exists_shop
  have hwritable : ¬Unwritable shopDefinition := by
    rintro (⟨hp, h⟩ | ⟨hp, h⟩ | ⟨hp, h⟩ | ⟨hp, hq, n, hn, h⟩)
    · obtain rfl := List.mem_singleton.1 hp
      exact nomatch h.2
    · exact absurd hp List.not_mem_nil
    · exact absurd hp List.not_mem_nil
    · obtain rfl := List.mem_singleton.1 hp
      obtain rfl := List.mem_singleton.1 hq
      exact nomatch hn
  obtain ⟨texts, htexts, hall⟩ :=
    (compile_of_ofValue shopDefinition_typed shopDefinition_renderable hs).2 hwritable
  exact ⟨s, texts, hs, htexts, hall⟩

/-! ### A long default -/

/-- A field that starts to count at a number. -/
def startDefinition (n : Int) : Value := .mapping [
  (.text "name", .text "start"), (.text "type", .text "integer"),
  (.text "options", .mapping [(.text "default", .int n)])]

/-- A table of counters, which start at a number. -/
def countersDefinition (n : Int) : Value :=
  schemaDefinition [tableDefinition "counters" [startDefinition n]] []

theorem countersDefinition_typed (n : Int) : Everywhere Typed .schema (countersDefinition n) := by
  have hstart : Typed .field (startDefinition n) :=
    { mapping := ⟨_, rfl⟩
      texts := List.forall_mem_cons.2
        ⟨isTextOrNull_text _, List.forall_mem_singleton.2 (isTextOrNull_text _)⟩
      lists := List.forall_mem_nil _
      values := List.forall_mem_nil _
      parts := List.forall_mem_nil _
      options := fun _ => Or.inr ⟨_, rfl⟩
      optionWords := List.forall_mem_cons.2 ⟨Or.inl rfl, List.forall_mem_singleton.2 (Or.inl rfl)⟩
      labels := nofun
      columns := nofun }
  have htable := tableDefinition_typed "counters"
    (List.forall_mem_singleton.2 ((everywhere_iff_self rfl).2 hstart))
  exact schemaDefinition_typed (List.forall_mem_singleton.2 htable) (List.forall_mem_nil _)

theorem countersDefinition_renderable (n : Int) :
    Everywhere Renderable .schema (countersDefinition n) := by
  have hwritten : ∀ name ∈ RecordKind.field.writtenOptions,
      IsTextOrNull ((startDefinition n).optionOf name) :=
    List.forall_mem_cons.2 ⟨Or.inl rfl, List.forall_mem_cons.2
      ⟨Or.inl rfl, List.forall_mem_singleton.2 (Or.inl rfl)⟩⟩
  have hstart : Renderable .field (startDefinition n) :=
    renderable_of_bare (by decide) hwritten trivial
  have htable := tableDefinition_renderable "counters"
    (List.forall_mem_singleton.2 ((everywhere_iff_self rfl).2 hstart))
  exact schemaDefinition_renderable (List.forall_mem_singleton.2 htable) (List.forall_mem_nil _)

/-- The table that the definition stands for. -/
def counters (n : Int) : Schema where
  tables := [{
    name := .text "counters"
    fields := [{
      name := .text "start", type := .text "integer", options := { default := .int n } }] }]

theorem ofValue_counters (n : Int) : Schema.ofValue (countersDefinition n) = .ok (counters n) := by
  with_unfolding_all rfl

theorem compile_counters_error {n : Int} (h : 10 ^ Text.maxDigits ≤ n.natAbs) :
    ∃ fault, (compile [counters n]).outcome = .error fault := by
  rw [outcome_compile_singleton]
  exact (exists_error_iff (countersDefinition_typed n) (countersDefinition_renderable n)
    (ofValue_counters n)).2 (.longDefault List.mem_cons_self List.mem_cons_self ⟨n, rfl, h⟩)

/-- The least number with too many digits. -/
def firstLong : Int := ((10 ^ Text.maxDigits : Nat) : Int)

/-- Counters that start at this number have no custom types and no buckets, and they are read and
not compiled. -/
theorem compile_counters : Everywhere Typed .schema (countersDefinition firstLong) ∧
    Everywhere Renderable .schema (countersDefinition firstLong) ∧
    (countersDefinition firstLong).listed "custom_types" = [] ∧
    (countersDefinition firstLong).listed "storage_buckets" = [] ∧
    Schema.ofValue (countersDefinition firstLong) = .ok (counters firstLong) ∧
    ∃ fault, (compile [counters firstLong]).outcome = .error fault := by
  have hlong : 10 ^ Text.maxDigits ≤ firstLong.natAbs := (Int.natAbs_natCast _).ge
  exact ⟨countersDefinition_typed _, countersDefinition_renderable _, rfl, rfl, ofValue_counters _,
    compile_counters_error hlong⟩

end SchemaCompiler
