import SchemaCompiler.Proofs.Schema.Definition
import SchemaCompiler.Proofs.Schema.Distinct

/-!
# What is accepted as a definition

A definition whose values have the expected types is read if and only if nothing is wrong with it.

* `succeeds_require`, `succeeds_readEach`, `succeeds_readOptions`, `succeeds_read` — when the parts
  of a definition, its options and its words are read;
* `Field.succeeds_iff`, …, `CustomType.succeeds_iff` — when a definition of each kind is read;
* `Schema.exists_ofValue_iff` — **a schema is read if and only if there is no flaw anywhere in its
  definition.**
-/

namespace SchemaCompiler

open Value

/-! ### Settings -/

section Settings

variable {d : Value} {key owner : String}

theorem settingD_of_mapping (hd : ∃ es, d = .mapping es) (default : Value) :
    d.settingD key default = .ok (d.settingOr key default) := by
  obtain ⟨es, rfl⟩ := hd
  rfl

/-- What is there is found. -/
theorem require_of_ne_null (hd : ∃ es, d = .mapping es) (h : d.settingOr key .null ≠ .null) :
    d.require key owner = .ok (d.settingOr key .null) := by
  obtain ⟨es, rfl⟩ := hd
  have hfind := find?_same_text key es
  have hsetting : (Value.mapping es).settingOr key .null = (get?.find key es).getD .null := rfl
  rw [hsetting] at h ⊢
  have hholds : holds (.text key) (.mapping es) = .ok (es.any fun e => same (.text key) e.1) := rfl
  rw [Value.require, requireUnder, hholds, ok_bind]
  cases hentry : es.find? fun e => same (.text key) e.1 with
  | none =>
    rw [hentry, Option.map_none] at hfind
    rw [← hfind] at h
    exact absurd rfl h
  | some e =>
    rw [hentry, Option.map_some] at hfind
    have hkey : same (.text key) e.1 = true := by simpa using List.find?_some hentry
    have hany : (es.any fun e => same (.text key) e.1) = true :=
      List.any_eq_true.2 ⟨e, List.mem_of_find?_eq_some hentry, hkey⟩
    have hunder : under (.text key) (.mapping es) = .ok e.2 := by
      rw [under, hentry]
    rw [if_pos hany, hunder, ok_bind, ← hfind, Option.getD_some]
    rw [← hfind, Option.getD_some] at h
    cases hvalue : e.2 with
    | null => exact absurd hvalue h
    | _ => rfl

/-- A key that has to be there is followed by the rest, if it is there. -/
theorem succeeds_require {α : Type} (hd : ∃ es, d = .mapping es) {f : Value → Except Fault α} :
    Succeeds (d.require key owner >>= f) ↔
      d.settingOr key .null ≠ .null ∧ Succeeds (f (d.settingOr key .null)) := by
  constructor
  · rintro ⟨a, ha⟩
    obtain ⟨found, hfound, ha⟩ := bind_eq_ok.1 ha
    have hsetting : d.settingOr key .null = found := settingOr_of_require hfound
    rw [hsetting]
    exact ⟨(require_eq_ok hfound).2, a, ha⟩
  · rintro ⟨hne, a, ha⟩
    rw [require_of_ne_null hd hne, ok_bind]
    exact ⟨a, ha⟩

theorem listed_of_items {vs : List Value} (h : (d.settingOr key (.list [])).items = .ok vs) :
    d.listed key = vs := by
  rw [Value.listed, h]

/-- The definitions under a key are read if each of them is. -/
theorem succeeds_readEach {α : Type} {read : Value → Except Fault α} (hd : ∃ es, d = .mapping es)
    (hlist : IsListing (d.settingOr key (.list []))) :
    Succeeds (readEach read key d) ↔ ∀ p ∈ d.listed key, Succeeds (read p) := by
  obtain ⟨vs, hvs⟩ := hlist
  rw [readEach, settingD_of_mapping hd, ok_bind, hvs, ok_bind, listed_of_items hvs]
  exact succeeds_mapM

end Settings

/-! ### Words -/

theorem mem_words_iff {α : Type} [Vocabulary α] {word : String} :
    word ∈ Vocabulary.words α ↔ ∃ m : α, Vocabulary.ofLabel? α word = some m := by
  rw [Vocabulary.words, List.mem_map, ← Option.isSome_iff_exists, Vocabulary.ofLabel?,
    List.find?_isSome]
  simp only [beq_iff_eq]

/-- A text is read as a member of a vocabulary if it is one of the words, in any letter case. -/
theorem read_text_eq_ok {α : Type} [Vocabulary α] {s what : String} {found : Option α} :
    Vocabulary.read α (.text s) what = .ok found ↔
      ∃ m, found = some m ∧ Vocabulary.ofLabel? α (Text.lower s) = some m := by
  have htext : (Value.text s).toText = s := rfl
  unfold Vocabulary.read
  simp only [htext]
  cases Vocabulary.ofLabel? α (Text.lower s) with
  | none => simp
  | some m => simp [eq_comm]

theorem unknownWord_null (words : List String) : ¬UnknownWord words .null := nofun

theorem succeeds_read {α : Type} [Vocabulary α] {v : Value} (what : String) (hv : IsTextOrNull v) :
    Succeeds (Vocabulary.read α v what) ↔ ¬UnknownWord (Vocabulary.words α) v := by
  rcases hv with rfl | ⟨s, rfl⟩
  · exact iff_of_true ⟨none, rfl⟩ (unknownWord_null _)
  · have hunknown : UnknownWord (Vocabulary.words α) (.text s) ↔
        Text.lower s ∉ Vocabulary.words α := by
      simp [UnknownWord]
    rw [hunknown, not_not, mem_words_iff]
    constructor
    · rintro ⟨found, hfound⟩
      obtain ⟨m, -, hm⟩ := read_text_eq_ok.1 hfound
      exact ⟨m, hm⟩
    · rintro ⟨m, hm⟩
      exact ⟨some m, read_text_eq_ok.2 ⟨m, rfl, hm⟩⟩

/-! ### Options -/

/-- Keys that are all names of options are texts. -/
theorem exists_options_of_names {names : List String} {es : List (Value × Value)}
    (h : ∀ key ∈ es.map Prod.fst, NamesOption names key) :
    ∃ options : List (String × Value), es = options.map entryOf ∧
      ∀ o ∈ options, OptionSet.nameOfKey o.1 ∈ names := by
  induction es with
  | nil => exact ⟨[], rfl, nofun⟩
  | cons e es ih =>
    rw [List.map_cons, List.forall_mem_cons] at h
    obtain ⟨⟨s, hs, hname⟩, hrest⟩ := h
    obtain ⟨options, rfl, hnames⟩ := ih hrest
    refine ⟨(s, e.2) :: options, ?_, List.forall_mem_cons.2 ⟨hname, hnames⟩⟩
    rw [List.map_cons, entryOf, ← hs]

section Options

variable {α : Type} [OptionSet α] {d : Value} {owner : String}

/-- **The options of a definition are read** if all their keys are names of options, from the values
that are given. -/
theorem readOptions_eq_ok_iff {o : α} (hd : ∃ es, d = .mapping es)
    (hoptions : d.settingOr "options" .null = .null ∨
      ∃ es, d.settingOr "options" .null = .mapping es) :
    readOptions α d owner = .ok o ↔ (∀ key ∈ d.optionKeys, NamesOption (OptionSet.names α) key) ∧
      OptionSet.ofSettings d.givenOption = .ok o := by
  rw [readOptions, settingD_of_mapping hd, ok_bind]
  rcases hoptions with hnull | ⟨es, hes⟩
  · have hkeys : d.optionKeys = [] := by rw [optionKeys, hnull]
    have hgiven : d.givenOption = fun _ => none := by
      funext name
      rw [givenOption, hnull]
      rfl
    rw [hnull, hkeys, hgiven]
    exact (and_iff_right nofun).symm
  · have hkeys : d.optionKeys = es.map Prod.fst := by rw [optionKeys, hes]
    have hread : OptionSet.ofValue α (.mapping es) owner =
        (OptionSet.settings (OptionSet.names α) owner es >>= fun given =>
          OptionSet.ofSettings (OptionSet.lastOf given)) := rfl
    have hgiven : ∀ options : List (String × Value), es = options.map entryOf → d.givenOption =
        OptionSet.lastOf (options.map fun o => (OptionSet.nameOfKey o.1, o.2)) := by
      rintro options rfl
      funext name
      rw [givenOption, hes, keywords_mapping]
    rw [hes, hread, hkeys]
    constructor
    · intro ho
      obtain ⟨given, hsettings, ho⟩ := bind_eq_ok.1 ho
      obtain ⟨options, heq, hnames, rfl⟩ := OptionSet.settings_eq_ok_iff.1 hsettings
      rw [hgiven options heq, heq, List.map_map]
      exact ⟨List.forall_mem_map.2 fun o ho => ⟨o.1, rfl, hnames o ho⟩, ho⟩
    · rintro ⟨hknown, ho⟩
      obtain ⟨options, heq, hnames⟩ := exists_options_of_names hknown
      rw [OptionSet.settings_eq_ok_iff.2 ⟨options, heq, hnames, rfl⟩, ok_bind, ← hgiven options heq]
      exact ho

/-- The words that a set of options is made with are the words of its grammar. -/
def OptionSet.ReadsWords (α : Type) [OptionSet α] (words : List (String × List String)) : Prop :=
  ∀ given : String → Option Value,
    (∀ w ∈ words, IsTextOrNull ((given w.1).getD .null)) →
      (Succeeds (OptionSet.ofSettings (α := α) given) ↔
        ∀ w ∈ words, ¬UnknownWord w.2 ((given w.1).getD .null))

/-- A definition has its options read if their keys are names and their words are known. -/
theorem succeeds_readOptions {words : List (String × List String)}
    (hreads : OptionSet.ReadsWords α words) (hd : ∃ es, d = .mapping es)
    (hoptions : d.settingOr "options" .null = .null ∨
      ∃ es, d.settingOr "options" .null = .mapping es)
    (hwords : ∀ w ∈ words, IsTextOrNull (d.optionOf w.1)) :
    Succeeds (readOptions α d owner) ↔
      (∀ key ∈ d.optionKeys, NamesOption (OptionSet.names α) key) ∧
        ∀ w ∈ words, ¬UnknownWord w.2 (d.optionOf w.1) := by
  simp only [Succeeds, readOptions_eq_ok_iff hd hoptions, exists_and_left]
  exact and_congr_right fun _ => hreads d.givenOption hwords

/-- Options without words are read if their keys are names. -/
theorem succeeds_plainOptions (h : ∀ given, Succeeds (OptionSet.ofSettings (α := α) given))
    (hd : ∃ es, d = .mapping es)
    (hoptions : d.settingOr "options" .null = .null ∨
      ∃ es, d.settingOr "options" .null = .mapping es) :
    Succeeds (readOptions α d owner) ↔
      ∀ key ∈ d.optionKeys, NamesOption (OptionSet.names α) key := by
  simp only [Succeeds, readOptions_eq_ok_iff hd hoptions, exists_and_left]
  exact and_iff_left (h d.givenOption)

end Options

/-- Options that are made with two words are read if both words are known. -/
theorem readsWords_two {α β γ : Type} [OptionSet α] [Vocabulary β] [Vocabulary γ]
    {first second what what' : String}
    {make : (String → Option Value) → Option β → Option γ → α}
    (h : ∀ given, OptionSet.ofSettings (α := α) given = do
      let a ← Vocabulary.read β ((given first).getD .null) what
      let b ← Vocabulary.read γ ((given second).getD .null) what'
      return make given a b) :
    OptionSet.ReadsWords α [(first, Vocabulary.words β), (second, Vocabulary.words γ)] := by
  intro given htexts
  simp only [List.forall_mem_cons, List.not_mem_nil, false_imp_iff, implies_true,
    and_true] at htexts ⊢
  rw [h, ← succeeds_read what htexts.1, ← succeeds_read what' htexts.2]
  exact succeeds_bind fun a _ => succeeds_bind_pure

theorem readsWords_field :
    OptionSet.ReadsWords FieldOptions RecordKind.field.grammar.optionWords :=
  readsWords_two fun _ => rfl

theorem readsWords_trigger :
    OptionSet.ReadsWords TriggerOptions RecordKind.trigger.grammar.optionWords :=
  readsWords_two fun _ => rfl

theorem readsWords_function :
    OptionSet.ReadsWords FunctionOptions RecordKind.function.grammar.optionWords :=
  readsWords_two fun _ => rfl

/-! ### Definitions without parts -/

theorem IsTextOrNull.isListing {v : Value} (h : IsTextOrNull v) : v = .null ∨ IsListing v := by
  refine h.imp_right ?_
  rintro ⟨s, rfl⟩
  exact ⟨_, rfl⟩

theorem AreColumns.isListing {v : Value} (h : AreColumns v) : IsListing v := by
  rcases h with ⟨es, rfl⟩ | ⟨vs, hvs, -⟩
  · exact ⟨_, rfl⟩
  · exact ⟨vs, hvs⟩

/-- A list counts as given if it is not blank. -/
theorem isTrue_iff_not_isBlank {v : Value} (h : v = .null ∨ IsListing v) :
    v.isTrue = true ↔ ¬IsBlank v := by
  unfold IsBlank
  rcases h with rfl | ⟨vs, hvs⟩
  · simp [Value.isTrue]
  · cases v with
    | list vs => simp [Value.isTrue, items]
    | tuple vs => simp [Value.isTrue, items]
    | text s => simp [Value.isTrue, items]
    | mapping es => simp [Value.isTrue, items]
    | _ => exact nomatch hvs

theorem Field.succeeds_iff {d : Value} (h : Everywhere Typed .field d) :
    Succeeds (Field.ofValue d) ↔ Everywhere Flawless .field d := by
  have ht := h.self
  rw [everywhere_iff_self rfl, flawless_iff, Field.ofValue, succeeds_require ht.mapping,
    succeeds_require ht.mapping, succeeds_bind_pure,
    succeeds_readOptions readsWords_field ht.mapping (ht.options nofun) ht.optionWords]
  simp [RecordKind.grammar, and_assoc]

theorem Index.succeeds_make {vs : List Value} {o : IndexOptions} :
    Succeeds (Index.make (.list vs) o) ↔ vs ≠ [] := by
  cases vs with
  | nil => exact iff_of_false (not_succeeds_error _) (not_not.2 rfl)
  | cons v vs => exact iff_of_true ⟨_, rfl⟩ nofun

theorem Index.succeeds_iff {d : Value} (h : Everywhere Typed .index d) :
    Succeeds (Index.ofValue d) ↔ Everywhere Flawless .index d := by
  have ht := h.self
  rw [everywhere_iff_self rfl, flawless_iff, Index.ofValue, succeeds_require ht.mapping]
  rcases ht.lists "fields" List.mem_cons_self with hnull | ⟨vs, hvs⟩
  · simp [RecordKind.grammar, hnull]
  · rw [hvs, ok_bind, succeeds_bind fun o _ => Index.succeeds_make,
      succeeds_plainOptions (fun _ => ⟨_, rfl⟩) ht.mapping (ht.options nofun)]
    simp [RecordKind.grammar, hvs, and_comm]

theorem Policy.succeeds_make {action description condition : Value} {o : PolicyOptions}
    (haction : IsTextOrNull action) (haction' : action ≠ .null)
    (hcondition : IsTextOrNull condition) (hcondition' : condition ≠ .null) :
    Succeeds (Policy.make action description condition o) ↔
      ¬UnknownWord (Vocabulary.words PolicyAction) action ∧ condition.items ≠ .ok [] := by
  have hgiven : condition.isTrue = true ↔ condition.items ≠ .ok [] := by
    rw [isTrue_iff_not_isBlank (IsTextOrNull.isListing hcondition), IsBlank, not_or,
      and_iff_right hcondition']
  rw [Policy.make, ← succeeds_read "policy action" haction, ← hgiven]
  refine succeeds_bind fun found hfound => ?_
  obtain ⟨m, rfl⟩ := Vocabulary.exists_of_read hfound haction'
  cases hgiven : condition.isTrue with
  | true => exact iff_of_true ⟨_, rfl⟩ rfl
  | false => exact iff_of_false (not_succeeds_error _) nofun

theorem Policy.succeeds_iff {d : Value} (h : Everywhere Typed .policy d) :
    Succeeds (Policy.ofValue d) ↔ Everywhere Flawless .policy d := by
  have ht := h.self
  rw [everywhere_iff_self rfl, flawless_iff]
  simp only [RecordKind.grammar, List.append_nil, List.forall_mem_cons, List.not_mem_nil,
    false_imp_iff, implies_true, and_true]
  rw [Policy.ofValue, settingD_of_mapping ht.mapping, ok_bind, succeeds_require ht.mapping,
    succeeds_require ht.mapping, ← and_assoc]
  refine and_congr_right fun hrequired => ?_
  have haction := ht.texts "action" (by simp [RecordKind.grammar])
  have hcondition := ht.texts "condition" (by simp [RecordKind.grammar])
  rw [succeeds_bind fun o _ =>
      Policy.succeeds_make haction hrequired.1 hcondition hrequired.2,
    succeeds_plainOptions (fun _ => ⟨_, rfl⟩) ht.mapping (ht.options nofun)]
  simp [and_comm, and_assoc]

theorem Trigger.succeeds_make {name body : Value} {events : List Value} {o : TriggerOptions} :
    Succeeds (Trigger.make name events body o) ↔ events ≠ [] := by
  cases events with
  | nil => exact iff_of_false (not_succeeds_error _) (not_not.2 rfl)
  | cons e events => exact iff_of_true ⟨_, rfl⟩ nofun

theorem Trigger.succeeds_iff {d : Value} (h : Everywhere Typed .trigger d) :
    Succeeds (Trigger.ofValue d) ↔ Everywhere Flawless .trigger d := by
  have ht := h.self
  rw [everywhere_iff_self rfl, flawless_iff, Trigger.ofValue, succeeds_require ht.mapping,
    succeeds_require ht.mapping]
  rcases ht.lists "events" List.mem_cons_self with hnull | ⟨vs, hvs⟩
  · simp [RecordKind.grammar, hnull]
  · rw [hvs, ok_bind, succeeds_require ht.mapping, succeeds_bind fun o _ => Trigger.succeeds_make,
      succeeds_readOptions readsWords_trigger ht.mapping (ht.options nofun) ht.optionWords]
    simp [RecordKind.grammar, hvs, and_assoc, and_comm, and_left_comm]

/-- Options of a relationship may be missing, and are taken as they are. -/
theorem Relationship.succeeds_make {kind name given : Value} (hkind : IsTextOrNull kind)
    (hgiven : given = .null ∨ ∃ es, given = .mapping es) :
    Succeeds (do
      let options ← if given.isTrue then given.entries else .ok []
      Relationship.make kind name options) ↔
      ¬UnknownWord (Vocabulary.words RelationshipKind) kind := by
  have hmake : ∀ options, Succeeds (Relationship.make kind name options) ↔
      ¬UnknownWord (Vocabulary.words RelationshipKind) kind := by
    intro options
    rw [Relationship.make, succeeds_bind_pure, succeeds_read _ hkind]
  rcases hgiven with rfl | ⟨es, rfl⟩
  · exact hmake []
  · dsimp only
    split
    · exact hmake es
    · exact hmake []

theorem Relationship.succeeds_iff {d : Value} (h : Everywhere Typed .relationship d) :
    Succeeds (Relationship.ofValue d) ↔ Everywhere Flawless .relationship d := by
  have ht := h.self
  have hkind := ht.texts "kind" (by simp [RecordKind.grammar])
  rw [everywhere_iff_self rfl, flawless_iff, Relationship.ofValue, succeeds_require ht.mapping,
    succeeds_require ht.mapping, settingD_of_mapping ht.mapping, ok_bind,
    Relationship.succeeds_make hkind (ht.options nofun)]
  simp [RecordKind.grammar, and_assoc]

theorem Function.succeeds_iff {d : Value} (h : Everywhere Typed .function d) :
    Succeeds (Function.ofValue d) ↔ Everywhere Flawless .function d := by
  have ht := h.self
  obtain ⟨args, hargs⟩ := ht.values "args" List.mem_cons_self
  rw [everywhere_iff_self rfl, flawless_iff, Function.ofValue, succeeds_require ht.mapping,
    settingD_of_mapping ht.mapping, ok_bind, hargs, ok_bind, succeeds_require ht.mapping,
    succeeds_require ht.mapping, succeeds_bind_pure,
    succeeds_readOptions readsWords_function ht.mapping (ht.options nofun) ht.optionWords]
  simp [RecordKind.grammar, and_assoc]

theorem View.succeeds_iff {d : Value} (h : Everywhere Typed .view d) :
    Succeeds (View.ofValue d) ↔ Everywhere Flawless .view d := by
  have ht := h.self
  rw [everywhere_iff_self rfl, flawless_iff, View.ofValue, succeeds_require ht.mapping,
    succeeds_require ht.mapping, succeeds_bind_pure,
    succeeds_plainOptions (fun _ => ⟨_, rfl⟩) ht.mapping (ht.options nofun)]
  simp [RecordKind.grammar, and_assoc]

/-! ### Custom types -/

theorem isWord_text {word s : String} : IsWord word (.text s) ↔ Text.lower s = word := by
  simp [IsWord]

theorem CustomType.succeeds_columns {fields : Value} (h : AreColumns fields) :
    Succeeds (CustomType.columns fields) := by
  rcases h with ⟨es, rfl⟩ | ⟨vs, hvs, hcolumns⟩
  · exact ⟨_, rfl⟩
  · unfold CustomType.columns
    split
    next => exact ⟨_, rfl⟩
    next =>
      rw [hvs, ok_bind, succeeds_mapM]
      intro column hcolumn
      obtain ⟨parts, hparts⟩ := hcolumns column hcolumn
      rw [hparts]
      exact ⟨_, rfl⟩

/-- A custom type is made if its kind is known and it has what this kind needs. -/
theorem CustomType.succeeds_make {name kind values fields baseType constraint : Value}
    (hkind : kind.IsText) (hvalues : values = .null ∨ IsListing values)
    (hfields : fields = .null ∨ AreColumns fields) :
    Succeeds (CustomType.make name kind values fields baseType constraint) ↔
      ¬UnknownWord (Vocabulary.words TypeKind) kind ∧
      (IsWord "enum" kind → ¬IsBlank values) ∧ (IsWord "composite" kind → ¬IsBlank fields) ∧
      (IsWord "domain" kind → baseType ≠ .null) := by
  rw [← succeeds_read "custom type kind" (Or.inr hkind)]
  refine succeeds_bind fun found hfound => ?_
  obtain ⟨s, rfl⟩ := hkind
  obtain ⟨m, rfl, hm⟩ := read_text_eq_ok.1 hfound
  -- The kind that was read is the one whose label the word is, so at most one of the rules applies.
  have hlabel : Vocabulary.label m = Text.lower s := by simpa using List.find?_some hm
  simp only [isWord_text, ← hlabel]
  cases m with
  | enum =>
    rw [← isTrue_iff_not_isBlank hvalues]
    cases values.isTrue with
    | true => simp [Vocabulary.label, Succeeds, pure_eq_ok]
    | false => simp [Vocabulary.label, Succeeds]
  | composite =>
    rw [← isTrue_iff_not_isBlank (hfields.imp_right AreColumns.isListing)]
    cases hgiven : fields.isTrue with
    | true =>
      have hcolumns : AreColumns fields := by
        refine hfields.resolve_left ?_
        rintro rfl
        cases hgiven
      obtain ⟨columns, hcolumns⟩ := CustomType.succeeds_columns hcolumns
      simp [Vocabulary.label, Succeeds, hcolumns, ok_bind, pure_eq_ok]
    | false => simp [Vocabulary.label, Succeeds]
  | domain =>
    cases baseType with
    | null => simp [Vocabulary.label, Succeeds, isNull]
    | _ => simp [Vocabulary.label, Succeeds, isNull, pure_eq_ok]

theorem furnished_iff {d : Value} : Furnished d ↔
    (IsWord "enum" (d.settingOr "kind" .null) → ¬IsBlank (d.settingOr "values" .null)) ∧
    (IsWord "composite" (d.settingOr "kind" .null) → ¬IsBlank (d.settingOr "fields" .null)) ∧
    (IsWord "domain" (d.settingOr "kind" .null) → d.settingOr "base_type" .null ≠ .null) :=
  ⟨fun h => ⟨h.values, h.fields, h.baseType⟩, fun h => ⟨h.1, h.2.1, h.2.2⟩⟩

theorem CustomType.succeeds_iff {d : Value} (h : Everywhere Typed .customType d) :
    Succeeds (CustomType.ofValue d) ↔ Everywhere Flawless .customType d := by
  have ht := h.self
  rw [everywhere_iff_self rfl, flawless_iff, furnished_iff]
  simp only [RecordKind.grammar, List.append_nil, List.forall_mem_cons, List.not_mem_nil,
    false_imp_iff, implies_true, and_true]
  rw [CustomType.ofValue, succeeds_require ht.mapping, succeeds_require ht.mapping, ← and_assoc]
  refine and_congr_right fun hrequired => ?_
  have hkind := (ht.texts "kind" (by simp [RecordKind.grammar])).resolve_left hrequired.2
  simp only [settingD_of_mapping ht.mapping, ok_bind]
  rw [CustomType.succeeds_make hkind (ht.labels rfl) (ht.columns rfl)]
  simp

/-! ### Definitions with parts -/

/-- Names that are texts are different if none is repeated. -/
theorem different_iff_nodup {names : List Value} (h : ∀ v ∈ names, v.IsText) :
    Different names ↔ names.Nodup := by
  refine List.Pairwise.iff_of_mem fun {v w} hv hw => ?_
  rw [Ne, ← Bool.not_eq_true, (h v hv).same_iff', eq_comm]

theorem Field.name_of_ofValue {d : Value} {f : Field} (h : Field.ofValue d = .ok f) :
    f.name = d.settingOr "name" .null ∧ f.name ≠ .null := by
  obtain ⟨name, hname, h⟩ := bind_eq_ok.1 h
  obtain ⟨type, -, h⟩ := bind_eq_ok.1 h
  obtain ⟨options, -, h⟩ := bind_eq_ok.1 h
  rw [← Except.ok.inj h]
  exact ⟨(settingOr_of_require hname).symm, (require_eq_ok hname).2⟩

/-- A table that was read has the name of its definition, and what was read from its lists. -/
theorem Table.parts_of_ofValue {d : Value} {t : Table} (h : Table.ofValue d = .ok t) :
    (t.name = d.settingOr "name" .null ∧ t.name ≠ .null) ∧
    (d.listed "fields").mapM Field.ofValue = .ok t.fields ∧
    (d.listed "policies").mapM Policy.ofValue = .ok t.policies := by
  obtain ⟨name, hname, h⟩ := bind_eq_ok.1 h
  obtain ⟨fields, hfields, h⟩ := bind_eq_ok.1 h
  obtain ⟨indexes, -, h⟩ := bind_eq_ok.1 h
  obtain ⟨policies, hpolicies, h⟩ := bind_eq_ok.1 h
  obtain ⟨triggers, -, h⟩ := bind_eq_ok.1 h
  obtain ⟨relationships, -, h⟩ := bind_eq_ok.1 h
  obtain ⟨rlsEnabled, -, h⟩ := bind_eq_ok.1 h
  obtain ⟨options, -, h⟩ := bind_eq_ok.1 h
  obtain ⟨-, -, rfl⟩ := Table.checked_eq_ok_iff.1 h
  exact ⟨⟨(settingOr_of_require hname).symm, (require_eq_ok hname).2⟩, readEach_eq_ok hfields,
    readEach_eq_ok hpolicies⟩

/-- A schema that was read consists of what was read from the lists of its definition. -/
theorem Schema.parts_of_ofValue {d : Value} {s : Schema} (h : Schema.ofValue d = .ok s) :
    (d.listed "tables").mapM Table.ofValue = .ok s.tables ∧
    (d.listed "functions").mapM Function.ofValue = .ok s.functions ∧
    (d.listed "views").mapM View.ofValue = .ok s.views ∧
    (d.listed "storage_buckets").mapM StorageBucket.ofValue = .ok s.storageBuckets ∧
    (d.listed "custom_types").mapM CustomType.ofValue = .ok s.customTypes := by
  unfold Schema.ofValue at h
  split at h
  next =>
    obtain ⟨tables, htables, h⟩ := bind_eq_ok.1 h
    obtain ⟨functions, hfunctions, h⟩ := bind_eq_ok.1 h
    obtain ⟨views, hviews, h⟩ := bind_eq_ok.1 h
    obtain ⟨buckets, hbuckets, h⟩ := bind_eq_ok.1 h
    obtain ⟨types, htypes, h⟩ := bind_eq_ok.1 h
    obtain ⟨-, -, rfl⟩ := Schema.checked_eq_ok_iff.1 h
    exact ⟨readEach_eq_ok htables, readEach_eq_ok hfunctions, readEach_eq_ok hviews,
      readEach_eq_ok hbuckets, readEach_eq_ok htypes⟩
  next => cases h

/-- The names of the parts that were read stand in their definitions, and are texts. -/
theorem names_of_readEach {α : Type} {read : Value → Except Fault α} {name : α → Value}
    {kind : RecordKind} (listed : RecordKind) {d : Value} {key : String} {found : List α}
    (h : Everywhere Typed kind d) (hkey : (key, listed) ∈ kind.grammar.parts)
    (hname : ∀ p x, read p = .ok x → name x = p.settingOr "name" .null ∧ name x ≠ .null)
    (htext : "name" ∈ listed.grammar.texts) (hfound : readEach read key d = .ok found) :
    found.map name = d.names key ∧ ∀ x ∈ found, (name x).IsText := by
  have hread := readEach_eq_ok hfound
  refine ⟨map_eq_map_of_mapM hread fun p x hx => (hname p x hx).1, fun x hx => ?_⟩
  obtain ⟨p, hp, hpx⟩ := exists_item_of_mem hread hx
  obtain ⟨hsetting, hne⟩ := hname p x hpx
  have hparts := (h.part hkey hp).self.texts "name" htext
  rw [← hsetting] at hparts
  exact hparts.resolve_left hne

theorem succeeds_parts {α : Type} {read : Value → Except Fault α} {kind listed : RecordKind}
    {d : Value} (key : String) (h : Everywhere Typed kind d)
    (hkey : (key, listed) ∈ kind.grammar.parts)
    (hread : ∀ p, Everywhere Typed listed p → (Succeeds (read p) ↔ Everywhere Flawless listed p)) :
    Succeeds (readEach read key d) ↔ ∀ p ∈ d.listed key, Everywhere Flawless listed p := by
  rw [succeeds_readEach h.self.mapping (h.self.parts _ hkey)]
  exact forall₂_congr fun p hp => hread p (h.part hkey hp)

theorem StorageBucket.succeeds_iff {d : Value} (h : Everywhere Typed .storageBucket d) :
    Succeeds (StorageBucket.ofValue d) ↔ Everywhere Flawless .storageBucket d := by
  have ht := h.self
  have hpolicies := succeeds_parts "policies" h List.mem_cons_self
    fun _ => Policy.succeeds_iff
  rw [everywhere_iff, flawless_iff, StorageBucket.ofValue, succeeds_require ht.mapping,
    succeeds_bind fun policies _ => succeeds_bind_pure, hpolicies,
    succeeds_plainOptions (fun _ => ⟨_, rfl⟩) ht.mapping (ht.options nofun)]
  simp [RecordKind.grammar, and_comm, and_left_comm]

theorem Table.succeeds_checked {t : Table} (h : ∀ f ∈ t.fields, f.name.IsText) :
    Succeeds t.checked ↔ (t.fields.map Field.name).Nodup := by
  rw [← different_iff_nodup (List.forall_mem_map.2 h)]
  constructor
  · rintro ⟨kept, hkept⟩
    exact (Table.checked_eq_ok_iff.1 hkept).2.1
  · intro hdifferent
    exact ⟨t, Table.checked_eq_ok_iff.2 ⟨fun f hf => (h f hf).isHashable, hdifferent, rfl⟩⟩

theorem Schema.succeeds_checked {s : Schema} (h : ∀ t ∈ s.tables, t.name.IsText) :
    Succeeds s.checked ↔ (s.tables.map Table.name).Nodup := by
  rw [← different_iff_nodup (List.forall_mem_map.2 h)]
  constructor
  · rintro ⟨built, hbuilt⟩
    exact (Schema.checked_eq_ok_iff.1 hbuilt).2.1
  · intro hdifferent
    exact ⟨s, Schema.checked_eq_ok_iff.2 ⟨fun t ht => (h t ht).isHashable, hdifferent, rfl⟩⟩

theorem Table.succeeds_iff {d : Value} (h : Everywhere Typed .table d) :
    Succeeds (Table.ofValue d) ↔ Everywhere Flawless .table d := by
  have ht := h.self
  have hfields := succeeds_parts "fields" h (by simp [RecordKind.grammar])
    fun _ => Field.succeeds_iff
  have hindexes := succeeds_parts "indexes" h (by simp [RecordKind.grammar])
    fun _ => Index.succeeds_iff
  have hpolicies := succeeds_parts "policies" h (by simp [RecordKind.grammar])
    fun _ => Policy.succeeds_iff
  have htriggers := succeeds_parts "triggers" h (by simp [RecordKind.grammar])
    fun _ => Trigger.succeeds_iff
  have hrelationships := succeeds_parts "relationships" h (by simp [RecordKind.grammar])
    fun _ => Relationship.succeeds_iff
  -- The fields have been read when their names are compared, so these are texts.
  have hchecked : ∀ t : Table, readEach Field.ofValue "fields" d = .ok t.fields →
      (Succeeds t.checked ↔ (d.names "fields").Nodup) := by
    intro t hfound
    obtain ⟨hnames, htexts⟩ := names_of_readEach .field h
      (by simp [RecordKind.grammar]) (fun p f => Field.name_of_ofValue) List.mem_cons_self hfound
    rw [Table.succeeds_checked htexts, hnames]
  rw [everywhere_iff, flawless_iff, Table.ofValue, succeeds_require ht.mapping,
    settingD_of_mapping ht.mapping]
  simp only [ok_bind]
  rw [succeeds_bind fun fields hfound => succeeds_bind fun indexes _ => succeeds_bind
      fun policies _ => succeeds_bind fun triggers _ => succeeds_bind fun relationships _ =>
      succeeds_bind fun options _ => hchecked _ hfound,
    hfields, hindexes, hpolicies, htriggers, hrelationships,
    succeeds_plainOptions (fun _ => ⟨_, rfl⟩) ht.mapping (ht.options nofun)]
  simp [RecordKind.grammar, and_assoc, and_comm, and_left_comm]

/-- **A schema is read if and only if nothing is wrong anywhere in its definition.** -/
theorem Schema.exists_ofValue_iff {d : Value} (h : Everywhere Typed .schema d) :
    (∃ s, Schema.ofValue d = .ok s) ↔ Everywhere Flawless .schema d := by
  have ht := h.self
  have htables := succeeds_parts "tables" h (by simp [RecordKind.grammar])
    fun _ => Table.succeeds_iff
  have hfunctions := succeeds_parts "functions" h (by simp [RecordKind.grammar])
    fun _ => Function.succeeds_iff
  have hviews := succeeds_parts "views" h (by simp [RecordKind.grammar])
    fun _ => View.succeeds_iff
  have hbuckets := succeeds_parts "storage_buckets" h (by simp [RecordKind.grammar])
    fun _ => StorageBucket.succeeds_iff
  have htypes := succeeds_parts "custom_types" h (by simp [RecordKind.grammar])
    fun _ => CustomType.succeeds_iff
  have hchecked : ∀ s : Schema, readEach Table.ofValue "tables" d = .ok s.tables →
      (Succeeds s.checked ↔ (d.names "tables").Nodup) := by
    intro s hfound
    obtain ⟨hnames, htexts⟩ := names_of_readEach .table h List.mem_cons_self
      (fun p t ht => (Table.parts_of_ofValue ht).1) List.mem_cons_self hfound
    rw [Schema.succeeds_checked htexts, hnames]
  have hread : Schema.ofValue d = (do
      let tables ← readEach Table.ofValue "tables" d
      let functions ← readEach Function.ofValue "functions" d
      let views ← readEach View.ofValue "views" d
      let storageBuckets ← readEach StorageBucket.ofValue "storage_buckets" d
      let customTypes ← readEach CustomType.ofValue "custom_types" d
      Schema.checked { tables, functions, views, storageBuckets, customTypes }) := by
    obtain ⟨es, rfl⟩ := ht.mapping
    rfl
  show Succeeds (Schema.ofValue d) ↔ _
  rw [hread, everywhere_iff, flawless_iff, succeeds_bind fun tables hfound => succeeds_bind
      fun functions _ => succeeds_bind fun views _ => succeeds_bind fun storageBuckets _ =>
      succeeds_bind fun customTypes _ => hchecked _ hfound,
    htables, hfunctions, hviews, hbuckets, htypes]
  simp [RecordKind.grammar, and_assoc, and_comm, and_left_comm]

/-- A table with nothing but fields. -/
def tableDefinition (name : String) (fields : List Value) : Value :=
  .mapping [(.text "name", .text name), (.text "fields", .list fields)]

/-- A schema of tables and custom types. -/
def schemaDefinition (tables types : List Value) : Value :=
  .mapping [(.text "tables", .list tables), (.text "custom_types", .list types)]

/-- A table of items. -/
def itemsDefinition : Value :=
  tableDefinition "items" [.mapping [(.text "name", .text "id"), (.text "type", .text "uuid")]]

/-- A type for their state. -/
def stateDefinition : Value := .mapping [
  (.text "name", .text "state"), (.text "kind", .text "Enum"),
  (.text "values", .list [.text "new", .text "used"])]

/-- A schema with both. -/
def shopDefinition : Value := schemaDefinition [itemsDefinition] [stateDefinition]

theorem isTextOrNull_text (s : String) : IsTextOrNull (.text s) := Or.inr ⟨s, rfl⟩

theorem isListing_list (vs : List Value) : IsListing (.list vs) := ⟨vs, rfl⟩

theorem tableDefinition_typed (name : String) {fields : List Value}
    (hfields : ∀ f ∈ fields, Everywhere Typed .field f) :
    Everywhere Typed .table (tableDefinition name fields) := by
  refine everywhere_iff.2
    ⟨{ mapping := ⟨_, rfl⟩
       texts := List.forall_mem_singleton.2 (isTextOrNull_text _)
       lists := List.forall_mem_nil _
       values := List.forall_mem_nil _
       parts := ?_
       options := fun _ => Or.inl rfl
       optionWords := List.forall_mem_nil _
       labels := nofun
       columns := nofun }, ?_⟩
  · simp only [RecordKind.grammar, List.forall_mem_cons]
    exact ⟨isListing_list _, isListing_list _, isListing_list _, isListing_list _,
      isListing_list _, List.forall_mem_nil _⟩
  · simp only [RecordKind.grammar, List.forall_mem_cons]
    exact ⟨hfields, List.forall_mem_nil _, List.forall_mem_nil _, List.forall_mem_nil _,
      List.forall_mem_nil _, List.forall_mem_nil _⟩

theorem schemaDefinition_typed {tables types : List Value}
    (htables : ∀ t ∈ tables, Everywhere Typed .table t)
    (htypes : ∀ t ∈ types, Everywhere Typed .customType t) :
    Everywhere Typed .schema (schemaDefinition tables types) := by
  refine everywhere_iff.2
    ⟨{ mapping := ⟨_, rfl⟩
       texts := List.forall_mem_nil _
       lists := List.forall_mem_nil _
       values := List.forall_mem_nil _
       parts := ?_
       options := fun h => absurd rfl h
       optionWords := List.forall_mem_nil _
       labels := nofun
       columns := nofun }, ?_⟩
  · simp only [RecordKind.grammar, List.forall_mem_cons]
    exact ⟨isListing_list _, isListing_list _, isListing_list _, isListing_list _,
      isListing_list _, List.forall_mem_nil _⟩
  · simp only [RecordKind.grammar, List.forall_mem_cons]
    exact ⟨htables, List.forall_mem_nil _, List.forall_mem_nil _, List.forall_mem_nil _, htypes,
      List.forall_mem_nil _⟩

theorem itemsDefinition_typed : Everywhere Typed .table itemsDefinition :=
  tableDefinition_typed "items" <| List.forall_mem_singleton.2 <| (everywhere_iff_self rfl).2
    { mapping := ⟨_, rfl⟩
      texts := List.forall_mem_cons.2
        ⟨isTextOrNull_text _, List.forall_mem_singleton.2 (isTextOrNull_text _)⟩
      lists := List.forall_mem_nil _
      values := List.forall_mem_nil _
      parts := List.forall_mem_nil _
      options := fun _ => Or.inl rfl
      optionWords := List.forall_mem_cons.2
        ⟨Or.inl rfl, List.forall_mem_singleton.2 (Or.inl rfl)⟩
      labels := nofun
      columns := nofun }

theorem stateDefinition_typed : Everywhere Typed .customType stateDefinition :=
  (everywhere_iff_self rfl).2
    { mapping := ⟨_, rfl⟩
      texts := List.forall_mem_cons.2
        ⟨isTextOrNull_text _, List.forall_mem_singleton.2 (isTextOrNull_text _)⟩
      lists := List.forall_mem_nil _
      values := List.forall_mem_nil _
      parts := List.forall_mem_nil _
      options := fun h => absurd rfl h
      optionWords := List.forall_mem_nil _
      labels := fun _ => Or.inr (isListing_list _)
      columns := fun _ => Or.inl rfl }

theorem shopDefinition_typed : Everywhere Typed .schema shopDefinition :=
  schemaDefinition_typed (List.forall_mem_singleton.2 itemsDefinition_typed)
    (List.forall_mem_singleton.2 stateDefinition_typed)

theorem exists_shop : ∃ s, Schema.ofValue shopDefinition = .ok s := by
  have hread : (Schema.ofValue shopDefinition).toOption.isSome = true := by decide +kernel
  cases h : Schema.ofValue shopDefinition with
  | ok s => exact ⟨s, rfl⟩
  | error fault =>
    rw [h] at hread
    exact nomatch hread

/-- This schema is read, and so there is no flaw in it. -/
theorem shopDefinition_flawless : Everywhere Flawless .schema shopDefinition :=
  (Schema.exists_ofValue_iff shopDefinition_typed).1 exists_shop

end SchemaCompiler
