import SchemaCompiler.Proofs.Schema.Acceptance

/-!
# What is known of a schema that was read

A definition may come from anywhere: a text may stand where a list is expected, a mapping where a
text is.  Whatever it is, once a schema has been read from it the schema can be relied on.  What
the parts of an object are is said of the record that shows it, so that a text, a member of a
vocabulary or a truth value is told apart from any other value.

* `Value.shown`, `Value.shownOption` — what the record of an object shows;
* `Field.Sound`, …, `Schema.Sound` — **what can be relied on**, kind by kind;
* `OptionsKnown` — every key of the options of a definition names an option;
* `Schema.sound_of_ofValue` — **a schema that was read is sound**, and no option of its definition
  went unrecognised.
-/

namespace SchemaCompiler

open Value

/-! ### What records show -/

namespace Value

/-- The value of an attribute of a record, null if it has none of this name. -/
def shown (v : Value) (name : String) : Value :=
  match v with
  | .record _ attributes => (attributes.lookup name).getD .null
  | _ => .null

/-- The value of an option of an object. -/
def shownOption (v : Value) (name : String) : Value := (v.shown "options").shown name

/-- A list that holds something, all of it with a property. -/
def IsFilledList (P : Value → Prop) (v : Value) : Prop :=
  ∃ vs, v = .list vs ∧ vs ≠ [] ∧ ∀ x ∈ vs, P x

/-- A member of a vocabulary. -/
def IsMember (α : Type) [Vocabulary α] (v : Value) : Prop :=
  ∃ m : α, v = .member (Vocabulary.toMember m)

/-- A member of a vocabulary, or nothing. -/
def IsMemberOrNull (α : Type) [Vocabulary α] (v : Value) : Prop := v = .null ∨ IsMember α v

/-- A tuple of any values. -/
def IsTuple (v : Value) : Prop := ∃ vs, v = .tuple vs

theorem isMemberOrNull_toValue {α : Type} [Vocabulary α] (m : Option α) :
    IsMemberOrNull α (Vocabulary.toValue m) := by
  cases m with
  | none => exact Or.inl rfl
  | some m => exact Or.inr ⟨m, rfl⟩

end Value

/-! ### What can be relied on -/

/-- The referential actions of a field are known, or not given. -/
structure Field.Sound (f : Field) : Prop where
  onDelete : IsMemberOrNull ReferentialAction (f.toValue.shownOption "on_delete")
  onUpdate : IsMemberOrNull ReferentialAction (f.toValue.shownOption "on_update")

/-- An index is over some fields, named by texts. -/
structure Index.Sound (i : Index) : Prop where
  fields : IsFilledList IsText (i.toValue.shown "fields")

/-- A trigger has an event, a timing and a scope. -/
structure Trigger.Sound (t : Trigger) : Prop where
  events : IsFilledList (fun _ => True) (t.toValue.shown "events")
  timing : IsMember TriggerTiming (t.toValue.shownOption "timing")
  scope : IsMember TriggerScope (t.toValue.shownOption "for_each")

/-- A policy has an action, and a condition that counts as given. -/
structure Policy.Sound (p : Policy) : Prop where
  action : IsMember PolicyAction (p.toValue.shown "action")
  condition : (p.toValue.shown "condition").isTrue = true

/-- A table has different names for its fields, says whether it is secured, and has sound parts. -/
structure Table.Sound (t : Table) : Prop where
  names : Different (t.fields.map Field.name)
  rlsEnabled : ∃ b, t.toValue.shown "rls_enabled" = .bool b
  fields : ∀ f ∈ t.fields, f.Sound
  indexes : ∀ i ∈ t.indexes, i.Sound
  policies : ∀ p ∈ t.policies, p.Sound
  triggers : ∀ g ∈ t.triggers, g.Sound

/-- The volatility and the security mode of a function are known, or not given. -/
structure Function.Sound (f : Function) : Prop where
  volatility : IsMemberOrNull Volatility (f.toValue.shownOption "volatility")
  security : IsMemberOrNull SecurityMode (f.toValue.shownOption "security")

/-- A custom type has a kind and what the kind needs: an enum its values, a composite its columns, a
domain its base type. -/
structure CustomType.Sound (t : CustomType) : Prop where
  kind : IsMember TypeKind (t.toValue.shown "kind")
  values : t.toValue.shown "kind" = .member (.typeKind .enum) →
    (t.toValue.shown "values").isTrue = true
  fields : t.toValue.shown "kind" = .member (.typeKind .composite) →
    IsFilledList IsTuple (t.toValue.shown "fields")
  baseType : t.toValue.shown "kind" = .member (.typeKind .domain) →
    t.toValue.shown "base_type" ≠ .null

/-- A schema has different names for its tables, and sound parts. -/
structure Schema.Sound (s : Schema) : Prop where
  names : Different (s.tables.map Table.name)
  tables : ∀ t ∈ s.tables, t.Sound
  functions : ∀ f ∈ s.functions, f.Sound
  bucketPolicies : ∀ b ∈ s.storageBuckets, ∀ p ∈ b.policies, p.Sound
  customTypes : ∀ t ∈ s.customTypes, t.Sound

/-- The keys of the options of a definition all name options of its kind. -/
def OptionsKnown (kind : RecordKind) (d : Value) : Prop :=
  ∀ names, kind.grammar.options = .oneOf names → ∀ key ∈ d.optionKeys, NamesOption names key

/-! ### Options and lists -/

section Parts

variable {α : Type} {kind : RecordKind} {d : Value}

/-- Options that were read had no key but names of options. -/
theorem optionsKnown_of_readOptions [OptionSet α] {owner : String} {o : α}
    (hrule : kind.grammar.options = .oneOf (OptionSet.names α))
    (h : readOptions α d owner = .ok o) : OptionsKnown kind d := by
  intro names hnames key hkey
  rw [hrule, OptionRule.oneOf.injEq] at hnames
  subst hnames
  obtain ⟨given, hgiven, h⟩ := bind_eq_ok.1 h
  rw [optionKeys, settingD_eq_ok hgiven] at hkey
  cases given with
  | mapping es =>
    obtain ⟨settings, hsettings, -⟩ := bind_eq_ok.1 h
    obtain ⟨options, rfl, hknown, -⟩ := OptionSet.settings_eq_ok_iff.1 hsettings
    obtain ⟨e, he, rfl⟩ := List.mem_map.1 hkey
    obtain ⟨o, ho, rfl⟩ := List.mem_map.1 he
    exact ⟨o.1, rfl, hknown o ho⟩
  | _ => exact absurd hkey List.not_mem_nil

/-- A kind of definition that takes no options, or any, has none that is unknown. -/
theorem optionsKnown_of_rule (hrule : ∀ names, kind.grammar.options ≠ .oneOf names) :
    OptionsKnown kind d :=
  fun names hnames => absurd hnames (hrule names)

section Lists

variable {read : Value → Except Fault α} {key : String} {found : List α}

/-- What is known of whatever is read is known of each part that was read. -/
theorem forall_of_readEach {P : α → Prop} (hread : ∀ p x, read p = .ok x → P x)
    (h : readEach read key d = .ok found) : ∀ x ∈ found, P x := by
  intro x hx
  obtain ⟨p, -, hp⟩ := exists_item_of_mem (readEach_eq_ok h) hx
  exact hread p x hp

/-- What is known of whatever can be read is known of the definitions of all parts. -/
theorem forall_listed_of_readEach {Q : Value → Prop} (hread : ∀ p x, read p = .ok x → Q p)
    (h : readEach read key d = .ok found) : ∀ p ∈ d.listed key, Q p := by
  intro p hp
  obtain ⟨x, -, hx⟩ := exists_result_of_mem (readEach_eq_ok h) hp
  exact hread p x hx

end Lists

end Parts

/-! ### Objects without parts -/

section Objects

variable {d : Value}

theorem Field.sound_of_reading {f : Field} (h : Field.ofValue d = .ok f) :
    f.Sound ∧ Everywhere OptionsKnown .field d := by
  obtain ⟨name, -, h⟩ := bind_eq_ok.1 h
  obtain ⟨type, -, h⟩ := bind_eq_ok.1 h
  obtain ⟨options, hoptions, -⟩ := bind_eq_ok.1 h
  refine ⟨⟨?_, ?_⟩, (everywhere_iff_self rfl).2 (optionsKnown_of_readOptions rfl hoptions)⟩
  · exact isMemberOrNull_toValue f.options.onDelete
  · exact isMemberOrNull_toValue f.options.onUpdate

theorem Index.sound_of_reading {i : Index} (h : Index.ofValue d = .ok i) :
    i.Sound ∧ Everywhere OptionsKnown .index d := by
  obtain ⟨columns, -, h⟩ := bind_eq_ok.1 h
  obtain ⟨fields, -, h⟩ := bind_eq_ok.1 h
  obtain ⟨options, hoptions, h⟩ := bind_eq_ok.1 h
  refine ⟨?_, (everywhere_iff_self rfl).2 (optionsKnown_of_readOptions rfl hoptions)⟩
  have hfilled : fields ≠ [] := Index.succeeds_make.1 ⟨i, h⟩
  rw [Index.make, if_pos (by simpa [Value.isTrue] using hfilled)] at h
  cases h
  refine ⟨_, rfl, by simpa using hfilled, ?_⟩
  intro v hv
  obtain ⟨field, -, rfl⟩ := List.mem_map.1 hv
  exact ⟨field, rfl⟩

theorem Policy.sound_of_reading {p : Policy} (h : Policy.ofValue d = .ok p) :
    p.Sound ∧ Everywhere OptionsKnown .policy d := by
  obtain ⟨description, -, h⟩ := bind_eq_ok.1 h
  obtain ⟨action, -, h⟩ := bind_eq_ok.1 h
  obtain ⟨condition, -, h⟩ := bind_eq_ok.1 h
  obtain ⟨options, hoptions, h⟩ := bind_eq_ok.1 h
  refine ⟨⟨⟨p.action, rfl⟩, ?_⟩,
    (everywhere_iff_self rfl).2 (optionsKnown_of_readOptions rfl hoptions)⟩
  obtain ⟨found, -, h⟩ := bind_eq_ok.1 h
  cases found with
  | none => cases h
  | some m =>
    dsimp only at h
    split at h
    next hgiven =>
      cases h
      exact hgiven
    next => cases h

theorem Trigger.sound_of_reading {t : Trigger} (h : Trigger.ofValue d = .ok t) :
    t.Sound ∧ Everywhere OptionsKnown .trigger d := by
  obtain ⟨name, -, h⟩ := bind_eq_ok.1 h
  obtain ⟨listed, -, h⟩ := bind_eq_ok.1 h
  obtain ⟨events, -, h⟩ := bind_eq_ok.1 h
  obtain ⟨body, -, h⟩ := bind_eq_ok.1 h
  obtain ⟨options, hoptions, h⟩ := bind_eq_ok.1 h
  refine ⟨⟨?_, ⟨t.options.timing, rfl⟩, ⟨t.options.scope, rfl⟩⟩,
    (everywhere_iff_self rfl).2 (optionsKnown_of_readOptions rfl hoptions)⟩
  have hfilled : events ≠ [] := Trigger.succeeds_make.1 ⟨t, h⟩
  rw [Trigger.make, if_neg (by simpa using hfilled)] at h
  cases h
  exact ⟨events, rfl, hfilled, fun _ _ => trivial⟩

theorem Relationship.optionsKnown (d : Value) : Everywhere OptionsKnown .relationship d :=
  (everywhere_iff_self rfl).2 (optionsKnown_of_rule nofun)

theorem Function.sound_of_reading {f : Function} (h : Function.ofValue d = .ok f) :
    f.Sound ∧ Everywhere OptionsKnown .function d := by
  obtain ⟨name, -, h⟩ := bind_eq_ok.1 h
  obtain ⟨setting, -, h⟩ := bind_eq_ok.1 h
  obtain ⟨args, -, h⟩ := bind_eq_ok.1 h
  obtain ⟨returnType, -, h⟩ := bind_eq_ok.1 h
  obtain ⟨body, -, h⟩ := bind_eq_ok.1 h
  obtain ⟨options, hoptions, -⟩ := bind_eq_ok.1 h
  refine ⟨⟨?_, ?_⟩, (everywhere_iff_self rfl).2 (optionsKnown_of_readOptions rfl hoptions)⟩
  · exact isMemberOrNull_toValue f.options.volatility
  · exact isMemberOrNull_toValue f.options.security

theorem View.optionsKnown_of_reading {v : View} (h : View.ofValue d = .ok v) :
    Everywhere OptionsKnown .view d := by
  obtain ⟨name, -, h⟩ := bind_eq_ok.1 h
  obtain ⟨query, -, h⟩ := bind_eq_ok.1 h
  obtain ⟨options, hoptions, -⟩ := bind_eq_ok.1 h
  exact (everywhere_iff_self rfl).2 (optionsKnown_of_readOptions rfl hoptions)

/-- Columns that were read from something that holds anything are tuples, and there are some. -/
theorem CustomType.isFilledList_columns {fields : Value} {columns : List Value}
    (hgiven : fields.isTrue = true) (h : CustomType.columns fields = .ok columns) :
    IsFilledList IsTuple (.list columns) := by
  refine ⟨columns, rfl, ?_⟩
  unfold CustomType.columns at h
  split at h
  next es =>
    cases h
    refine ⟨by simpa [Value.isTrue] using hgiven, ?_⟩
    intro v hv
    obtain ⟨e, -, rfl⟩ := List.mem_map.1 hv
    exact ⟨_, rfl⟩
  next =>
    obtain ⟨vs, hvs, h⟩ := bind_eq_ok.1 h
    constructor
    · rintro rfl
      -- No columns come from no items, and what has no items does not count as given.
      have hempty : vs = [] := List.forall₂_nil_right_iff.1 (mapM_eq_ok.1 h)
      have hblank : fields.IsBlank := Or.inr (hempty ▸ hvs)
      exact (isTrue_iff_not_isBlank (Or.inr ⟨vs, hvs⟩)).1 hgiven hblank
    · intro v hv
      obtain ⟨column, -, hcolumn⟩ := exists_item_of_mem h hv
      obtain ⟨parts, -, hparts⟩ := bind_eq_ok.1 hcolumn
      exact ⟨parts, (Except.ok.inj hparts).symm⟩

theorem CustomType.sound_of_make {name kind values fields baseType constraint : Value}
    {t : CustomType} (hkind : kind ≠ .null)
    (h : CustomType.make name kind values fields baseType constraint = .ok t) : t.Sound := by
  obtain ⟨found, hfound, h⟩ := bind_eq_ok.1 h
  obtain ⟨m, rfl⟩ := Vocabulary.exists_of_read hfound hkind
  cases m with
  | enum =>
    dsimp only at h
    split at h
    next hgiven =>
      cases h
      exact ⟨⟨.enum, rfl⟩, fun _ => hgiven, nofun, nofun⟩
    next => cases h
  | composite =>
    dsimp only at h
    split at h
    next hgiven =>
      obtain ⟨columns, hcolumns, h⟩ := bind_eq_ok.1 h
      cases h
      exact ⟨⟨.composite, rfl⟩, nofun, fun _ => isFilledList_columns hgiven hcolumns, nofun⟩
    next => cases h
  | domain =>
    dsimp only at h
    split at h
    next => cases h
    next hgiven =>
      cases h
      refine ⟨⟨.domain, rfl⟩, nofun, nofun, fun _ hnull => hgiven ?_⟩
      rw [show baseType = .null from hnull]
      rfl

theorem CustomType.sound_of_reading {t : CustomType} (h : CustomType.ofValue d = .ok t) :
    t.Sound ∧ Everywhere OptionsKnown .customType d := by
  obtain ⟨name, -, h⟩ := bind_eq_ok.1 h
  obtain ⟨kind, hkind, h⟩ := bind_eq_ok.1 h
  obtain ⟨values, -, h⟩ := bind_eq_ok.1 h
  obtain ⟨fields, -, h⟩ := bind_eq_ok.1 h
  obtain ⟨baseType, -, h⟩ := bind_eq_ok.1 h
  obtain ⟨constraint, -, h⟩ := bind_eq_ok.1 h
  exact ⟨CustomType.sound_of_make (require_eq_ok hkind).2 h,
    (everywhere_iff_self rfl).2 (optionsKnown_of_rule nofun)⟩

/-! ### Objects with parts -/

theorem StorageBucket.sound_of_reading {b : StorageBucket} (h : StorageBucket.ofValue d = .ok b) :
    (∀ p ∈ b.policies, p.Sound) ∧ Everywhere OptionsKnown .storageBucket d := by
  obtain ⟨name, -, h⟩ := bind_eq_ok.1 h
  obtain ⟨policies, hpolicies, h⟩ := bind_eq_ok.1 h
  obtain ⟨options, hoptions, h⟩ := bind_eq_ok.1 h
  have hsound := forall_of_readEach (fun _ _ hp => (Policy.sound_of_reading hp).1) hpolicies
  have hknown :=
    forall_listed_of_readEach (fun _ _ hp => (Policy.sound_of_reading hp).2) hpolicies
  cases h
  refine ⟨hsound, everywhere_iff.2 ⟨optionsKnown_of_readOptions rfl hoptions, ?_⟩⟩
  simp only [RecordKind.grammar, List.forall_mem_cons]
  exact ⟨hknown, List.forall_mem_nil _⟩

theorem Table.sound_of_reading {t : Table} (h : Table.ofValue d = .ok t) :
    t.Sound ∧ Everywhere OptionsKnown .table d := by
  obtain ⟨name, -, h⟩ := bind_eq_ok.1 h
  obtain ⟨fields, hfields, h⟩ := bind_eq_ok.1 h
  obtain ⟨indexes, hindexes, h⟩ := bind_eq_ok.1 h
  obtain ⟨policies, hpolicies, h⟩ := bind_eq_ok.1 h
  obtain ⟨triggers, htriggers, h⟩ := bind_eq_ok.1 h
  obtain ⟨relationships, hrelationships, h⟩ := bind_eq_ok.1 h
  obtain ⟨rlsEnabled, -, h⟩ := bind_eq_ok.1 h
  obtain ⟨options, hoptions, h⟩ := bind_eq_ok.1 h
  obtain ⟨-, hnames, rfl⟩ := Table.checked_eq_ok_iff.1 h
  refine ⟨⟨hnames, ⟨_, rfl⟩, ?_, ?_, ?_, ?_⟩,
    everywhere_iff.2 ⟨optionsKnown_of_readOptions rfl hoptions, ?_⟩⟩
  · exact forall_of_readEach (fun _ _ hf => (Field.sound_of_reading hf).1) hfields
  · exact forall_of_readEach (fun _ _ hi => (Index.sound_of_reading hi).1) hindexes
  · exact forall_of_readEach (fun _ _ hp => (Policy.sound_of_reading hp).1) hpolicies
  · exact forall_of_readEach (fun _ _ hg => (Trigger.sound_of_reading hg).1) htriggers
  · simp only [RecordKind.grammar, List.forall_mem_cons]
    refine ⟨?_, ?_, ?_, ?_, ?_, List.forall_mem_nil _⟩
    · exact forall_listed_of_readEach (fun _ _ hf => (Field.sound_of_reading hf).2) hfields
    · exact forall_listed_of_readEach (fun _ _ hi => (Index.sound_of_reading hi).2) hindexes
    · exact forall_listed_of_readEach (fun _ _ hp => (Policy.sound_of_reading hp).2) hpolicies
    · exact forall_listed_of_readEach (fun _ _ hg => (Trigger.sound_of_reading hg).2) htriggers
    · exact fun p _ => Relationship.optionsKnown p

end Objects

/-- **A schema that was read is sound**, whatever its definition.  The names of its tables differ,
and so do those of the fields of each table; indexes have fields, which are texts, triggers have
events, a timing and a scope, policies have an action and a condition, and custom types have a kind
and what it needs; what is chosen from a vocabulary is one of its members.  Every key of the options
anywhere in the definition names an option of its kind, so that none went unrecognised; of two keys
for one option the later one counts. -/
theorem Schema.sound_of_ofValue {d : Value} {s : Schema} (h : Schema.ofValue d = .ok s) :
    s.Sound ∧ Everywhere OptionsKnown .schema d := by
  unfold Schema.ofValue at h
  split at h
  next =>
    obtain ⟨tables, htables, h⟩ := bind_eq_ok.1 h
    obtain ⟨functions, hfunctions, h⟩ := bind_eq_ok.1 h
    obtain ⟨views, hviews, h⟩ := bind_eq_ok.1 h
    obtain ⟨buckets, hbuckets, h⟩ := bind_eq_ok.1 h
    obtain ⟨types, htypes, h⟩ := bind_eq_ok.1 h
    obtain ⟨-, hnames, rfl⟩ := Schema.checked_eq_ok_iff.1 h
    have hnoOptions : ∀ names, RecordKind.schema.grammar.options ≠ .oneOf names := by
      intro names hnames
      cases hnames
    refine ⟨⟨hnames, ?_, ?_, ?_, ?_⟩, everywhere_iff.2 ⟨optionsKnown_of_rule hnoOptions, ?_⟩⟩
    · exact forall_of_readEach (fun _ _ ht => (Table.sound_of_reading ht).1) htables
    · exact forall_of_readEach (fun _ _ hf => (Function.sound_of_reading hf).1) hfunctions
    · exact forall_of_readEach (fun _ _ hb => (StorageBucket.sound_of_reading hb).1) hbuckets
    · exact forall_of_readEach (fun _ _ ht => (CustomType.sound_of_reading ht).1) htypes
    · simp only [RecordKind.grammar, List.forall_mem_cons]
      refine ⟨?_, ?_, ?_, ?_, ?_, List.forall_mem_nil _⟩
      · exact forall_listed_of_readEach (fun _ _ ht => (Table.sound_of_reading ht).2) htables
      · exact forall_listed_of_readEach (fun _ _ hf => (Function.sound_of_reading hf).2) hfunctions
      · exact forall_listed_of_readEach (fun _ _ hv => View.optionsKnown_of_reading hv) hviews
      · exact forall_listed_of_readEach (fun _ _ hb => (StorageBucket.sound_of_reading hb).2)
          hbuckets
      · exact forall_listed_of_readEach (fun _ _ ht => (CustomType.sound_of_reading ht).2) htypes
  next => cases h

/-- A definition whose values are of other types than expected: numbers stand for names and types, a
text and mappings for lists. -/
def unusualDefinition : Value := .mapping [
  (.text "tables", .list [.mapping [
    (.text "name", .int 7),
    (.text "fields", .tuple [.mapping [(.text "name", .bool true), (.text "type", .int 3),
      (.text "options", .mapping [(.text "on_delete", .text "Set_Null")])]]),
    (.text "indexes", .list [.mapping [(.text "fields", .text "ab")]]),
    (.text "policies", .list [.mapping [(.text "action", .text "SELECT"), (.text "condition", .int 1),
      (.text "options", .mapping [(.text "for", .text "admin")])]]),
    (.text "triggers", .list [.mapping [(.text "name", .text "log"), (.text "body", .text "x"),
      (.text "events", .mapping [(.text "insert", .null)]),
      (.text "options", .mapping [(.text "timing", .null)])]]),
    (.text "rls_enabled", .text "no")]]),
  (.text "custom_types", .list [.mapping [(.text "name", .text "pair"),
    (.text "kind", .text "Composite"), (.text "fields", .mapping [(.text "x", .text "int")])]])]

/-- It is read, and what is read from it is sound. -/
theorem sound_unusualDefinition : ∃ s, Schema.ofValue unusualDefinition = .ok s ∧ s.Sound ∧
    Everywhere OptionsKnown .schema unusualDefinition := by
  have hread : (Schema.ofValue unusualDefinition).toOption.isSome = true := by decide +kernel
  cases h : Schema.ofValue unusualDefinition with
  | ok s => exact ⟨s, rfl, Schema.sound_of_ofValue h⟩
  | error fault =>
    rw [h] at hread
    exact absurd hread Bool.false_ne_true

end SchemaCompiler
