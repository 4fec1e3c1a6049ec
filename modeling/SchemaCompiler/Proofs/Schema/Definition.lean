import SchemaCompiler.Proofs.Schema.Reading
import SchemaCompiler.Schema.Basic

/-!
# The definition language

What the definitions of a schema and of its parts look like, and what can be wrong with them, said
of the definitions alone and not of how they are read.

* `Grammar`, `RecordKind.grammar` — the keys of each kind of definition;
* `Inside`, `Everywhere` — a definition with its parts, the parts of these and so on;
* `Typed` — a definition whose values have the types that are expected;
* `Flaw` — **what can be wrong with a definition of the right types**.
-/

namespace SchemaCompiler

/-! ### Grammars -/

/-- The options that a definition takes. -/
inductive OptionRule where
  | unused
  /-- Any options at all. -/
  | free
  /-- The options of these names. -/
  | oneOf (names : List String)

/-- The words of a vocabulary. -/
def Vocabulary.words (α : Type) [Vocabulary α] : List String :=
  (Vocabulary.members (α := α)).map Vocabulary.label

/-- The keys of a kind of definition. -/
structure Grammar where
  /-- The keys for texts that have to be there. -/
  texts : List String := []
  /-- Those of them for texts that have to say something. -/
  filled : List String := []
  /-- Those of them for words from a vocabulary. -/
  words : List (String × List String) := []
  /-- The keys for lists that have to be there and to hold something. -/
  lists : List String := []
  /-- The keys for lists of values that may be missing. -/
  values : List String := []
  /-- The keys for lists of definitions, which may be missing, and the kinds of these. -/
  parts : List (String × RecordKind) := []
  /-- Those of them for definitions that have to have different names. -/
  distinct : List String := []
  options : OptionRule := .unused
  /-- The options that are words from a vocabulary. -/
  optionWords : List (String × List String) := []

/-- The grammar of each kind of definition. -/
def RecordKind.grammar : RecordKind → Grammar
  | .field =>
    { texts := ["name", "type"]
      options := .oneOf (OptionSet.names FieldOptions)
      optionWords := [("on_delete", Vocabulary.words ReferentialAction),
        ("on_update", Vocabulary.words ReferentialAction)] }
  | .index =>
    { lists := ["fields"]
      options := .oneOf (OptionSet.names IndexOptions) }
  | .policy =>
    { texts := ["action", "condition"]
      filled := ["condition"]
      words := [("action", Vocabulary.words PolicyAction)]
      options := .oneOf (OptionSet.names PolicyOptions) }
  | .trigger =>
    { texts := ["name", "body"]
      lists := ["events"]
      options := .oneOf (OptionSet.names TriggerOptions)
      optionWords := [("timing", Vocabulary.words TriggerTiming),
        ("for_each", Vocabulary.words TriggerScope)] }
  | .relationship =>
    { texts := ["name", "kind"]
      words := [("kind", Vocabulary.words RelationshipKind)]
      options := .free }
  | .table =>
    { texts := ["name"]
      parts := [("fields", .field), ("indexes", .index), ("policies", .policy),
        ("triggers", .trigger), ("relationships", .relationship)]
      distinct := ["fields"]
      options := .oneOf (OptionSet.names TableOptions) }
  | .function =>
    { texts := ["name", "return_type", "body"]
      values := ["args"]
      options := .oneOf (OptionSet.names FunctionOptions)
      optionWords := [("volatility", Vocabulary.words Volatility),
        ("security", Vocabulary.words SecurityMode)] }
  | .view =>
    { texts := ["name", "query"]
      options := .oneOf (OptionSet.names ViewOptions) }
  | .customType =>
    { texts := ["name", "kind"]
      words := [("kind", Vocabulary.words TypeKind)] }
  | .storageBucket =>
    { texts := ["name"]
      parts := [("policies", .policy)]
      options := .oneOf (OptionSet.names BucketOptions) }
  | .schema =>
    { parts := [("tables", .table), ("functions", .function), ("views", .view),
        ("storage_buckets", .storageBucket), ("custom_types", .customType)]
      distinct := ["tables"] }
  | _ => {}

/-! ### Definitions and their parts -/

/-- A definition itself, or one that is listed in it, at any depth. -/
inductive Inside : RecordKind → Value → RecordKind → Value → Prop
  | whole (kind : RecordKind) (d : Value) : Inside kind d kind d
  | part {kind listed inner : RecordKind} {d p q : Value} {key : String}
    (hkey : (key, listed) ∈ kind.grammar.parts) (hpart : p ∈ d.listed key)
    (h : Inside listed p inner q) : Inside kind d inner q

/-- A property of a definition and of everything in it. -/
def Everywhere (P : RecordKind → Value → Prop) (kind : RecordKind) (d : Value) : Prop :=
  ∀ inner p, Inside kind d inner p → P inner p

section Everywhere

variable {P : RecordKind → Value → Prop} {kind : RecordKind} {d : Value}

/-- **Everywhere in a definition** means of itself, and everywhere in its parts. -/
theorem everywhere_iff : Everywhere P kind d ↔
    P kind d ∧ ∀ e ∈ kind.grammar.parts, ∀ p ∈ d.listed e.1, Everywhere P e.2 p := by
  constructor
  · intro h
    refine ⟨h kind d (.whole kind d), fun e he p hp inner q hq => ?_⟩
    exact h inner q (.part he hp hq)
  · rintro ⟨hself, hparts⟩ inner q hq
    cases hq with
    | whole => exact hself
    | part hkey hpart hq => exact hparts _ hkey _ hpart inner q hq

theorem Everywhere.self (h : Everywhere P kind d) : P kind d := (everywhere_iff.1 h).1

theorem Everywhere.part (h : Everywhere P kind d) {key : String} {listed : RecordKind}
    (hkey : (key, listed) ∈ kind.grammar.parts) {p : Value} (hp : p ∈ d.listed key) :
    Everywhere P listed p :=
  (everywhere_iff.1 h).2 (key, listed) hkey p hp

/-- A definition without parts is everything in it. -/
theorem everywhere_iff_self (hparts : kind.grammar.parts = []) :
    Everywhere P kind d ↔ P kind d := by
  rw [everywhere_iff, hparts]
  exact and_iff_left nofun

end Everywhere

/-! ### Types -/

namespace Value

/-- A text, or nothing. -/
def IsTextOrNull (v : Value) : Prop := v = .null ∨ v.IsText

/-- A list, or what holds things one after the other as a list does. -/
def IsListing (v : Value) : Prop := ∃ vs, v.items = .ok vs

/-- The columns of a composite type: a mapping from names to types, or a list of lists. -/
def AreColumns (v : Value) : Prop :=
  (∃ es, v = .mapping es) ∨ ∃ vs, v.items = .ok vs ∧ ∀ column ∈ vs, column.IsListing

/-- The keys of the options that a definition gives. -/
def optionKeys (d : Value) : List Value :=
  match d.settingOr "options" .null with
  | .mapping es => es.map Prod.fst
  | _ => []

/-- The value that a definition gives for an option: the last one, if there are several. -/
def givenOption (d : Value) (name : String) : Option Value :=
  let given := (d.settingOr "options" .null).keywords
  OptionSet.lastOf (given.map fun o => (OptionSet.nameOfKey o.1, o.2)) name

/-- The value of an option of a definition, null if it is not given. -/
def optionOf (d : Value) (name : String) : Value := (d.givenOption name).getD .null

/-- The names of the definitions that are listed under a key. -/
def names (d : Value) (key : String) : List Value :=
  (d.listed key).map fun p => p.settingOr "name" .null

end Value

open Value

/-- A definition with values of the expected types.  What has to be there may still be missing or
null, and so may the options, each of them, and what describes a custom type. -/
structure Typed (kind : RecordKind) (d : Value) : Prop where
  mapping : ∃ es, d = .mapping es
  texts : ∀ key ∈ kind.grammar.texts, IsTextOrNull (d.settingOr key .null)
  lists : ∀ key ∈ kind.grammar.lists,
    d.settingOr key .null = .null ∨ IsListing (d.settingOr key .null)
  values : ∀ key ∈ kind.grammar.values, IsListing (d.settingOr key (.list []))
  parts : ∀ e ∈ kind.grammar.parts, IsListing (d.settingOr e.1 (.list []))
  options : kind.grammar.options ≠ .unused →
    d.settingOr "options" .null = .null ∨ ∃ es, d.settingOr "options" .null = .mapping es
  optionWords : ∀ w ∈ kind.grammar.optionWords, IsTextOrNull (d.optionOf w.1)
  labels : kind = .customType →
    d.settingOr "values" .null = .null ∨ IsListing (d.settingOr "values" .null)
  columns : kind = .customType →
    d.settingOr "fields" .null = .null ∨ AreColumns (d.settingOr "fields" .null)

/-! ### Flaws -/

namespace Value

/-- A text that is, in lower case, none of the words. -/
def UnknownWord (words : List String) (v : Value) : Prop :=
  ∃ s, v = .text s ∧ Text.lower s ∉ words

/-- A text that is, in lower case, this word. -/
def IsWord (word : String) (v : Value) : Prop := ∃ s, v = .text s ∧ Text.lower s = word

/-- A key that names one of the options. -/
def NamesOption (names : List String) (key : Value) : Prop :=
  ∃ s, key = .text s ∧ OptionSet.nameOfKey s ∈ names

/-- Nothing, or an empty list. -/
def IsBlank (v : Value) : Prop := v = .null ∨ v.items = .ok []

end Value

/-- What can be wrong with a definition, apart from what is wrong with its parts. -/
inductive Flaw : RecordKind → Value → Prop
  /-- What has to be there is missing or null. -/
  | missing {kind : RecordKind} {d : Value} {key : String}
    (hkey : key ∈ kind.grammar.texts ++ kind.grammar.lists)
    (h : d.settingOr key .null = .null) : Flaw kind d
  /-- There is nothing in it: an index has no fields, a trigger no events, a policy no condition. -/
  | empty {kind : RecordKind} {d : Value} {key : String}
    (hkey : key ∈ kind.grammar.filled ++ kind.grammar.lists)
    (h : (d.settingOr key .null).items = .ok []) : Flaw kind d
  /-- A word is not in its vocabulary. -/
  | unknownWord {kind : RecordKind} {d : Value} {key : String} {words : List String}
    (hword : (key, words) ∈ kind.grammar.words)
    (h : UnknownWord words (d.settingOr key .null)) : Flaw kind d
  /-- A key of the options is not one of an option. -/
  | unknownOption {kind : RecordKind} {d : Value} {names : List String} {key : Value}
    (hrule : kind.grammar.options = .oneOf names) (hkey : key ∈ d.optionKeys)
    (h : ¬NamesOption names key) : Flaw kind d
  /-- The word for an option is not in its vocabulary. -/
  | unknownOptionWord {kind : RecordKind} {d : Value} {name : String} {words : List String}
    (hword : (name, words) ∈ kind.grammar.optionWords)
    (h : UnknownWord words (d.optionOf name)) : Flaw kind d
  /-- Two fields of a table, or two tables, have one name. -/
  | repeatedName {kind : RecordKind} {d : Value} {key : String}
    (hkey : key ∈ kind.grammar.distinct) (h : ¬(d.names key).Nodup) : Flaw kind d
  | enumWithoutValues {d : Value} (hkind : IsWord "enum" (d.settingOr "kind" .null))
    (h : IsBlank (d.settingOr "values" .null)) : Flaw .customType d
  | compositeWithoutFields {d : Value} (hkind : IsWord "composite" (d.settingOr "kind" .null))
    (h : IsBlank (d.settingOr "fields" .null)) : Flaw .customType d
  | domainWithoutBase {d : Value} (hkind : IsWord "domain" (d.settingOr "kind" .null))
    (h : d.settingOr "base_type" .null = .null) : Flaw .customType d

/-- A definition that has no flaw of its own. -/
def Flawless (kind : RecordKind) (d : Value) : Prop := ¬Flaw kind d

/-- A custom type that has what its kind needs. -/
structure Furnished (d : Value) : Prop where
  values : IsWord "enum" (d.settingOr "kind" .null) → ¬IsBlank (d.settingOr "values" .null)
  fields : IsWord "composite" (d.settingOr "kind" .null) → ¬IsBlank (d.settingOr "fields" .null)
  baseType : IsWord "domain" (d.settingOr "kind" .null) → d.settingOr "base_type" .null ≠ .null

/-- **A definition without flaws**, rule by rule. -/
theorem flawless_iff {kind : RecordKind} {d : Value} : Flawless kind d ↔
    (∀ key ∈ kind.grammar.texts ++ kind.grammar.lists, d.settingOr key .null ≠ .null) ∧
    (∀ key ∈ kind.grammar.filled ++ kind.grammar.lists,
      (d.settingOr key .null).items ≠ .ok []) ∧
    (∀ w ∈ kind.grammar.words, ¬UnknownWord w.2 (d.settingOr w.1 .null)) ∧
    (∀ names, kind.grammar.options = .oneOf names → ∀ key ∈ d.optionKeys, NamesOption names key) ∧
    (∀ w ∈ kind.grammar.optionWords, ¬UnknownWord w.2 (d.optionOf w.1)) ∧
    (∀ key ∈ kind.grammar.distinct, (d.names key).Nodup) ∧
    (kind = .customType → Furnished d) := by
  constructor
  · intro h
    refine ⟨?_, ?_, ?_, ?_, ?_, ?_, ?_⟩
    · exact fun key hkey hnull => h (.missing hkey hnull)
    · exact fun key hkey hempty => h (.empty hkey hempty)
    · exact fun w hw hword => h (.unknownWord hw hword)
    · exact fun names hrule key hkey => Classical.byContradiction
        fun hunknown => h (.unknownOption hrule hkey hunknown)
    · exact fun w hw hword => h (.unknownOptionWord hw hword)
    · exact fun key hkey => Classical.byContradiction
        fun hrepeated => h (.repeatedName hkey hrepeated)
    · rintro rfl
      exact ⟨fun hkind hblank => h (.enumWithoutValues hkind hblank),
        fun hkind hblank => h (.compositeWithoutFields hkind hblank),
        fun hkind hnull => h (.domainWithoutBase hkind hnull)⟩
  · rintro ⟨hrequired, hfilled, hwords, hoptions, hoptionWords, hdistinct, htype⟩ hflaw
    cases hflaw with
    | missing hkey hnull => exact hrequired _ hkey hnull
    | empty hkey hempty => exact hfilled _ hkey hempty
    | unknownWord hword hunknown => exact hwords _ hword hunknown
    | unknownOption hrule hkey hunknown => exact hunknown (hoptions _ hrule _ hkey)
    | unknownOptionWord hword hunknown => exact hoptionWords _ hword hunknown
    | repeatedName hkey hrepeated => exact hrepeated (hdistinct _ hkey)
    | enumWithoutValues hkind hblank => exact (htype rfl).values hkind hblank
    | compositeWithoutFields hkind hblank => exact (htype rfl).fields hkind hblank
    | domainWithoutBase hkind hnull => exact (htype rfl).baseType hkind hnull

end SchemaCompiler
