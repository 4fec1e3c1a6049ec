import Mathlib.Data.List.Nodup
import Mathlib.Data.List.Perm.Basic
import Mathlib.Data.Set.List
import SchemaCompiler.Migration.Statement
import SchemaCompiler.Proofs.Schema.Acceptance
import SchemaCompiler.RowSecurity.Changes

/-!
# The order of keys

A definition is read key by key, so it does not matter in which order its keys are written; nor does
the order of the options matter, and the same goes for every definition that is listed in it.  Two
things are read in their order: lists, and the columns of a composite type.  And the order of the
options is kept in one place, where it does no harm: a relationship keeps its options as they are
given, and is for information only.

* `EndAlike` — two computations that fail together, or have results that are alike;
* `Reordered` — **two definitions that differ only in the order of keys**, at any depth;
* `Matches` — definitions that have the same under each key, but for options and parts;
* `readAlike_of_reordered` — **definitions that differ only in the order of keys are read alike**;
* `Schema.bare` — a schema without the options of its relationships, from which the same statements
  and the same changes are made;
* `Schema.reordered_same` — both together.
-/

namespace SchemaCompiler

open Value

/-! ### Ending alike -/

section EndAlike

variable {α β γ δ : Type}

/-- Two computations that both fail, or both have a result, and `k` does not tell the results
apart. -/
def EndAlike (k : α → γ) (x y : Except Fault α) : Prop := x.toOption.map k = y.toOption.map k

theorem EndAlike.refl (k : α → γ) (x : Except Fault α) : EndAlike k x x := Eq.refl _

theorem EndAlike.trans {k : α → γ} {x y z : Except Fault α} (h : EndAlike k x y)
    (h' : EndAlike k y z) : EndAlike k x z :=
  Eq.trans h h'

/-- Computations with the same results end alike, whatever their faults are. -/
theorem endAlike_of_iff {x y : Except Fault α} (h : ∀ a, x = .ok a ↔ y = .ok a) (k : α → γ) :
    EndAlike k x y := by
  cases x with
  | ok a =>
    rw [(h a).1 rfl]
    exact .refl k _
  | error fault =>
    cases y with
    | ok b => exact nomatch (h b).2 rfl
    | error fault' => exact Eq.refl none

theorem EndAlike.succeeds_iff {k : α → γ} {x y : Except Fault α} (h : EndAlike k x y) :
    Succeeds x ↔ Succeeds y := by
  cases x with
  | ok a =>
    cases y with
    | ok b => exact iff_of_true (succeeds_ok a) (succeeds_ok b)
    | error fault => exact nomatch h
  | error fault =>
    cases y with
    | ok b => exact nomatch h
    | error fault' => exact iff_of_false (not_succeeds_error _) (not_succeeds_error _)

theorem EndAlike.eq_of_ok {k : α → γ} {a b : α} (h : EndAlike k (.ok a) (.ok b)) : k a = k b :=
  Option.some.inj h

/-- Sequences end alike if their first parts do, and so do their second parts after results that
are alike. -/
theorem EndAlike.bind {k : α → γ} {g : β → δ} {x y : Except Fault α}
    {f f' : α → Except Fault β} (h : EndAlike k x y)
    (hf : ∀ a b, k a = k b → EndAlike g (f a) (f' b)) : EndAlike g (x >>= f) (y >>= f') := by
  cases x with
  | ok a =>
    cases y with
    | ok b => exact hf a b h.eq_of_ok
    | error fault => exact nomatch h
  | error fault =>
    cases y with
    | ok b => exact nomatch h
    | error fault' => exact Eq.refl none

/-- Sequences end alike if their first parts have the same result. -/
theorem EndAlike.andThen {g : β → δ} {x y : Except Fault α} {f f' : α → Except Fault β}
    (h : EndAlike id x y) (hf : ∀ a, EndAlike g (f a) (f' a)) : EndAlike g (x >>= f) (y >>= f') :=
  h.bind fun a b hab => by
    rw [show a = b from hab]
    exact hf b

theorem EndAlike.mapM {k : β → γ} {f : α → Except Fault β} {as bs : List α}
    (h : List.Forall₂ (fun a b => EndAlike k (f a) (f b)) as bs) :
    EndAlike (List.map k) (as.mapM f) (bs.mapM f) := by
  induction h with
  | nil => exact .refl _ _
  | @cons a b as bs hab _ ih =>
    rw [List.mapM_cons, List.mapM_cons]
    refine hab.bind fun c d hcd => ih.bind fun rest rest' hrest => ?_
    show some (k c :: rest.map k) = some (k d :: rest'.map k)
    rw [hcd, hrest]

end EndAlike

/-! ### Definitions in another order -/

/-- Options in another order.  The two spellings of one option of a policy must not both be given,
for then the last one counts. -/
structure Shuffled (kind : RecordKind) (options other : List (Value × Value)) : Prop where
  perm : options.Perm other
  different : Different (options.map Prod.fst)
  spelledOnce : kind = .policy →
    ¬(.text "for" ∈ options.map Prod.fst ∧ .text "for_" ∈ options.map Prod.fst)

/-- **Two definitions that differ only in the order of keys**: of their own keys, of the keys of
their options, or of keys in the definitions that are listed in them. -/
inductive Reordered : RecordKind → Value → Value → Prop
  | refl (kind : RecordKind) (d : Value) : Reordered kind d d
  | trans {kind : RecordKind} {d e f : Value} (h : Reordered kind d e) (h' : Reordered kind e f) :
    Reordered kind d f
  | keys {kind : RecordKind} {entries other : List (Value × Value)} (hperm : entries.Perm other)
    (hdifferent : Different (entries.map Prod.fst)) :
    Reordered kind (.mapping entries) (.mapping other)
  | options {kind : RecordKind} {before after options other : List (Value × Value)}
    (h : Shuffled kind options other) :
    Reordered kind (.mapping (before ++ (.text "options", .mapping options) :: after))
      (.mapping (before ++ (.text "options", .mapping other) :: after))
  | part {kind listed : RecordKind} {key : String} {before after : List (Value × Value)}
    {list : List Value → Value} {front rest : List Value} {p q : Value}
    (hkey : (key, listed) ∈ kind.grammar.parts) (hlist : list = .list ∨ list = .tuple)
    (h : Reordered listed p q) :
    Reordered kind (.mapping (before ++ (.text key, list (front ++ p :: rest)) :: after))
      (.mapping (before ++ (.text key, list (front ++ q :: rest)) :: after))

/-- Everything that is listed under a key may be reordered at once. -/
theorem Reordered.parts {kind listed : RecordKind} {key : String}
    {before after : List (Value × Value)} {list : List Value → Value} {front ps qs : List Value}
    (hkey : (key, listed) ∈ kind.grammar.parts) (hlist : list = .list ∨ list = .tuple)
    (h : List.Forall₂ (Reordered listed) ps qs) :
    Reordered kind (.mapping (before ++ (.text key, list (front ++ ps)) :: after))
      (.mapping (before ++ (.text key, list (front ++ qs)) :: after)) := by
  induction h generalizing front with
  | nil => exact .refl kind _
  | @cons p q ps qs hpq _ ih =>
    refine .trans (.part hkey hlist hpq) ?_
    have hrest := @ih (front ++ [q])
    simpa only [List.append_assoc, List.cons_append, List.nil_append] using hrest

/-! ### What does not depend on the order -/

theorem find_eq_lookup (key : String) (es : List (Value × Value)) :
    get?.find key es = (Value.mapping es).keywords.lookup key := by
  induction es with
  | nil => rfl
  | cons e es ih =>
    obtain ⟨k, v⟩ := e
    cases k with
    | text k =>
      show (if k = key then some v else get?.find key es) =
        List.lookup key ((k, v) :: (Value.mapping es).keywords)
      rw [List.lookup_cons, ih]
      by_cases hkey : k = key
      · rw [if_pos hkey, hkey, beq_self_eq_true]
      · rw [if_neg hkey, beq_eq_false_iff_ne.2 fun heq => hkey heq.symm]
    | _ => exact ih

/-- Keys that all differ are not repeated as texts. -/
theorem nodup_keywords {es : List (Value × Value)} (h : Different (es.map Prod.fst)) :
    ((Value.mapping es).keywords.map Prod.fst).Nodup := by
  rw [Different, List.pairwise_map] at h
  rw [List.Nodup, List.pairwise_map, Value.keywords, List.pairwise_filterMap]
  refine h.imp fun {e e'} hne o ho o' ho' heq => ?_
  obtain ⟨k, v⟩ := e
  obtain ⟨k', v'⟩ := e'
  cases k with
  | text k =>
    cases k' with
    | text k' =>
      rw [← Option.some.inj ho, ← Option.some.inj ho'] at heq
      rw [same_text_left.2 (congrArg Value.text heq)] at hne
      cases hne
    | _ => cases ho'
  | _ => cases ho

/-- What a mapping has under a key does not depend on the order of its entries. -/
theorem find_of_perm {es fs : List (Value × Value)} (h : es.Perm fs)
    (hdifferent : Different (es.map Prod.fst)) (key : String) :
    get?.find key es = get?.find key fs := by
  rw [find_eq_lookup, find_eq_lookup]
  exact (lookup_of_perm (h.filterMap _) (nodup_keywords hdifferent) key).symm

theorem require_eq_ok_iff {d found : Value} {key owner : String} (hd : ∃ es, d = .mapping es) :
    d.require key owner = .ok found ↔ d.settingOr key .null = found ∧ found ≠ .null := by
  constructor
  · exact fun h => ⟨settingOr_of_require h, (require_eq_ok h).2⟩
  · rintro ⟨rfl, hne⟩
    exact require_of_ne_null hd hne

/-- Of two mappings that differ in one entry, what stands under a key is the same, or it is what
this entry has. -/
theorem find_replaced (k key : String) (before after : List (Value × Value)) (x y : Value) :
    get?.find k (before ++ (.text key, x) :: after) =
        get?.find k (before ++ (.text key, y) :: after) ∨
      k = key ∧ get?.find k (before ++ (.text key, x) :: after) = some x ∧
        get?.find k (before ++ (.text key, y) :: after) = some y := by
  induction before with
  | nil =>
    show (if key = k then some x else get?.find k after) =
        (if key = k then some y else get?.find k after) ∨
      k = key ∧ (if key = k then some x else get?.find k after) = some x ∧
        (if key = k then some y else get?.find k after) = some y
    by_cases hkey : key = k
    · exact Or.inr ⟨hkey.symm, if_pos hkey, if_pos hkey⟩
    · rw [if_neg hkey, if_neg hkey]
      exact Or.inl rfl
  | cons e before ih =>
    obtain ⟨k', v⟩ := e
    cases k' with
    | text k' =>
      simp only [List.cons_append, get?.find]
      by_cases hkey : k' = k
      · exact Or.inl (by rw [if_pos hkey, if_pos hkey])
      · rw [if_neg hkey, if_neg hkey]
        exact ih
    | _ => exact ih

/-! ### Options -/

namespace OptionSet

/-- Only the two spellings of one option have the same name. -/
theorem nameOfKey_eq {a b : String} (h : nameOfKey a = nameOfKey b) :
    a = b ∨ (a = "for" ∧ b = "for_") ∨ (a = "for_" ∧ b = "for") := by
  unfold nameOfKey at h
  split at h <;> split at h
  next ha hb => exact Or.inl (ha.trans hb.symm)
  next ha _ => exact Or.inr (Or.inl ⟨ha, h.symm⟩)
  next _ hb => exact Or.inr (Or.inr ⟨h, hb⟩)
  next => exact Or.inl h

variable {kind : RecordKind} {options other : List (Value × Value)}

/-- The names of the options that are given are not repeated. -/
theorem nodup_names {names : List String} (hnames : kind = .policy ∨ "for_" ∉ names)
    {given : List (String × Value)} (h : Shuffled kind (given.map entryOf) other)
    (hgiven : ∀ o ∈ given, nameOfKey o.1 ∈ names) :
    (given.map fun o => nameOfKey o.1).Nodup := by
  have hkeys : (given.map entryOf).map Prod.fst = (given.map Prod.fst).map Value.text := by
    rw [List.map_map, List.map_map]
    rfl
  have hmem : ∀ {k : String}, k ∈ given.map Prod.fst →
      Value.text k ∈ (given.map entryOf).map Prod.fst := fun hk => by
    rw [hkeys]
    exact List.mem_map_of_mem hk
  -- only policies have an option of this name, so everywhere else the long spelling is refused
  have honce : ¬("for" ∈ given.map Prod.fst ∧ "for_" ∈ given.map Prod.fst) := by
    rintro ⟨hfor, hfor'⟩
    rcases hnames with hpolicy | hnames
    · exact h.spelledOnce hpolicy ⟨hmem hfor, hmem hfor'⟩
    · obtain ⟨o, ho, hkey⟩ := List.mem_map.1 hfor'
      have hname := hgiven o ho
      rw [hkey] at hname
      exact hnames hname
  have hnodup : (given.map Prod.fst).Nodup := by
    have hall := nodup_keywords h.different
    rw [keywords_mapping] at hall
    exact hall
  have hmap : (given.map fun o => nameOfKey o.1) = (given.map Prod.fst).map nameOfKey := by
    rw [List.map_map]
    rfl
  rw [hmap]
  refine List.Nodup.map_on (fun a ha b hb heq => ?_) hnodup
  rcases nameOfKey_eq heq with hab | ⟨rfl, rfl⟩ | ⟨rfl, rfl⟩
  · exact hab
  · exact absurd ⟨ha, hb⟩ honce
  · exact absurd ⟨hb, ha⟩ honce

theorem entryOf_injective : Function.Injective entryOf := by
  rintro ⟨a, x⟩ ⟨b, y⟩ h
  rw [entryOf, entryOf, Prod.mk.injEq, Value.text.injEq] at h
  exact Prod.ext h.1 h.2

/-- Options that are given by name are so in any order. -/
theorem exists_given {given : List (String × Value)} (h : (given.map entryOf).Perm other) :
    ∃ given', other = given'.map entryOf ∧ given.Perm given' := by
  obtain ⟨given', rfl⟩ : other ∈ Set.range (List.map entryOf) := by
    rw [Set.range_list_map]
    intro e he
    obtain ⟨o, -, rfl⟩ := List.mem_map.1 (h.mem_iff.2 he)
    exact ⟨o, rfl⟩
  exact ⟨given', rfl, (List.map_perm_map_iff entryOf_injective).1 h⟩

theorem lastOf_of_perm {given given' : List (String × Value)} (h : given.Perm given')
    (hnodup : (given.map fun o => nameOfKey o.1).Nodup) :
    lastOf (given'.map fun o => (nameOfKey o.1, o.2)) =
      lastOf (given.map fun o => (nameOfKey o.1, o.2)) := by
  funext name
  refine lookup_of_perm ((List.reverse_perm _).trans
    ((h.map _).trans (List.reverse_perm _).symm)) ?_ name
  rw [List.map_reverse, List.nodup_reverse, List.map_map]
  exact hnodup

variable {α : Type} [OptionSet α]

/-- **A mapping that is read as options**: the last value given under each name counts. -/
theorem ofValue_mapping_eq_ok_iff {owner : String} {set : α} :
    ofValue α (.mapping options) owner = .ok set ↔
      ∃ given : List (String × Value), options = given.map entryOf ∧
        (∀ o ∈ given, nameOfKey o.1 ∈ names α) ∧
        ofSettings (lastOf (given.map fun o => (nameOfKey o.1, o.2))) = .ok set := by
  show (settings (names α) owner options >>= fun given => ofSettings (lastOf given)) = _ ↔ _
  rw [bind_eq_ok]
  simp only [settings_eq_ok_iff]
  constructor
  · rintro ⟨_, ⟨given, hes, hgiven, rfl⟩, hset⟩
    exact ⟨given, hes, hgiven, hset⟩
  · rintro ⟨given, hes, hgiven, hset⟩
    exact ⟨_, ⟨given, hes, hgiven, rfl⟩, hset⟩

/-- **Options are read alike in every order.** -/
theorem ofValue_shuffled (hnames : kind = .policy ∨ "for_" ∉ names α)
    (h : Shuffled kind options other) (owner : String) (set : α) :
    ofValue α (.mapping options) owner = .ok set ↔ ofValue α (.mapping other) owner = .ok set := by
  rw [ofValue_mapping_eq_ok_iff, ofValue_mapping_eq_ok_iff]
  constructor
  · rintro ⟨given, rfl, hgiven, hset⟩
    obtain ⟨given', rfl, hperm⟩ := exists_given h.perm
    refine ⟨given', rfl, fun o ho => hgiven o (hperm.mem_iff.2 ho), ?_⟩
    rw [lastOf_of_perm hperm (nodup_names hnames h hgiven)]
    exact hset
  · rintro ⟨given', rfl, hgiven', hset⟩
    obtain ⟨given, rfl, hperm⟩ := exists_given h.perm.symm
    have hgiven : ∀ o ∈ given, nameOfKey o.1 ∈ names α := fun o ho =>
      hgiven' o (hperm.mem_iff.2 ho)
    refine ⟨given, rfl, hgiven, ?_⟩
    rw [lastOf_of_perm hperm.symm (nodup_names hnames h hgiven)] at hset
    exact hset

/-- Where both spellings of an option are given, the order decides. -/
example : let roles (options : List (Value × Value)) :=
      (ofValue PolicyOptions (.mapping options) "policy").map PolicyOptions.roles
    roles [(.text "for", .text "anon"), (.text "for_", .text "editor")] = .ok (.text "editor") ∧
      roles [(.text "for_", .text "editor"), (.text "for", .text "anon")] = .ok (.text "anon") :=
  ⟨rfl, rfl⟩

end OptionSet

/-! ### Reading -/

/-- A relationship without its options. -/
def Relationship.bare (r : Relationship) : Relationship := { r with options := [] }

/-- A table without the options of its relationships. -/
def Table.bare (t : Table) : Table :=
  { t with relationships := t.relationships.map Relationship.bare }

/-- A schema without the options of its relationships. -/
def Schema.bare (s : Schema) : Schema := { s with tables := s.tables.map Table.bare }

/-- Two definitions of one kind that are read alike: none of them can be read, or both can with the
same result, but for the options of relationships. -/
def ReadAlike : RecordKind → Value → Value → Prop
  | .field, d, e => EndAlike id (Field.ofValue d) (Field.ofValue e)
  | .index, d, e => EndAlike id (Index.ofValue d) (Index.ofValue e)
  | .policy, d, e => EndAlike id (Policy.ofValue d) (Policy.ofValue e)
  | .trigger, d, e => EndAlike id (Trigger.ofValue d) (Trigger.ofValue e)
  | .relationship, d, e =>
    EndAlike Relationship.bare (Relationship.ofValue d) (Relationship.ofValue e)
  | .table, d, e => EndAlike Table.bare (Table.ofValue d) (Table.ofValue e)
  | .function, d, e => EndAlike id (Function.ofValue d) (Function.ofValue e)
  | .view, d, e => EndAlike id (View.ofValue d) (View.ofValue e)
  | .customType, d, e => EndAlike id (CustomType.ofValue d) (CustomType.ofValue e)
  | .storageBucket, d, e => EndAlike id (StorageBucket.ofValue d) (StorageBucket.ofValue e)
  | .schema, d, e => EndAlike Schema.bare (Schema.ofValue d) (Schema.ofValue e)
  | _, _, _ => True

theorem ReadAlike.refl (kind : RecordKind) (d : Value) : ReadAlike kind d d := by
  cases kind <;> first | exact EndAlike.refl _ _ | exact trivial

instance (kind : RecordKind) : Std.Refl (ReadAlike kind) := ⟨ReadAlike.refl kind⟩

theorem ReadAlike.trans {kind : RecordKind} {d e f : Value} (h : ReadAlike kind d e)
    (h' : ReadAlike kind e f) : ReadAlike kind d f := by
  cases kind <;> first | exact EndAlike.trans h h' | exact trivial

/-- Two values under one key of two definitions that are as good as each other. -/
inductive Interchangeable (kind : RecordKind) : String → Value → Value → Prop
  | options {options other : List (Value × Value)} (h : Shuffled kind options other) :
    Interchangeable kind "options" (.mapping options) (.mapping other)
  | parts {key : String} {listed : RecordKind} {x y : Value} {ps qs : List Value}
    (hkey : (key, listed) ∈ kind.grammar.parts) (hx : x.items = .ok ps) (hy : y.items = .ok qs)
    (h : List.Forall₂ (ReadAlike listed) ps qs) : Interchangeable kind key x y

/-- Two mappings that have the same under every key, but for options in another order and for parts
that are read alike. -/
structure Matches (kind : RecordKind) (d e : Value) : Prop where
  left : ∃ es, d = .mapping es
  right : ∃ es, e = .mapping es
  under (key : String) : d.get? key = e.get? key ∨
    ∃ x y, d.get? key = some x ∧ e.get? key = some y ∧ Interchangeable kind key x y

theorem options_not_part (kind listed : RecordKind) : ("options", listed) ∉ kind.grammar.parts := by
  cases kind <;> simp [RecordKind.grammar]

theorem listed_unique {kind listed listed' : RecordKind} {key : String}
    (h : (key, listed) ∈ kind.grammar.parts) (h' : (key, listed') ∈ kind.grammar.parts) :
    listed = listed' := by
  have hnodup : (kind.grammar.parts.map Prod.fst).Nodup := by cases kind <;> decide
  exact congrArg Prod.snd (List.inj_on_of_nodup_map hnodup h h' rfl)

/-- Of two mappings that differ in one entry, with values that are as good as each other, either is
as good as the other. -/
theorem matches_replaced {kind : RecordKind} {key : String} {before after : List (Value × Value)}
    {x y : Value} (h : Interchangeable kind key x y) :
    Matches kind (.mapping (before ++ (.text key, x) :: after))
      (.mapping (before ++ (.text key, y) :: after)) := by
  refine ⟨⟨_, rfl⟩, ⟨_, rfl⟩, fun k => ?_⟩
  rcases find_replaced k key before after x y with hsame | ⟨rfl, hx, hy⟩
  · exact Or.inl hsame
  · exact Or.inr ⟨x, y, hx, hy, h⟩

namespace Matches

variable {kind : RecordKind} {d e : Value} (h : Matches kind d e)
include h

/-- What is neither options nor a list of parts is the same. -/
theorem get?_eq {key : String} (hkey : key ∉ "options" :: kind.grammar.parts.map Prod.fst) :
    d.get? key = e.get? key := by
  rcases h.under key with hsame | ⟨x, y, -, -, hxy⟩
  · exact hsame
  · cases hxy with
    | options hshuffled => exact absurd List.mem_cons_self hkey
    | parts hpart => exact absurd (List.mem_cons_of_mem _ (List.mem_map_of_mem hpart)) hkey

theorem settingD (key : String) (hkey : key ∉ "options" :: kind.grammar.parts.map Prod.fst)
    (default : Value) : d.settingD key default = e.settingD key default := by
  rw [settingD_of_mapping h.left, settingD_of_mapping h.right, settingOr, settingOr, h.get?_eq hkey]

theorem require {key : String} (hkey : key ∉ "options" :: kind.grammar.parts.map Prod.fst)
    (owner : String) : EndAlike id (d.require key owner) (e.require key owner) := by
  have hsetting : d.settingOr key .null = e.settingOr key .null := by
    rw [settingOr, settingOr, h.get?_eq hkey]
  refine endAlike_of_iff (fun found => ?_) id
  rw [require_eq_ok_iff h.left, require_eq_ok_iff h.right, hsetting]

/-- Options are read alike. -/
theorem readOptions {α : Type} [OptionSet α]
    (hnames : kind = .policy ∨ "for_" ∉ OptionSet.names α) (owner : String) :
    EndAlike id (readOptions α d owner) (readOptions α e owner) := by
  rw [SchemaCompiler.readOptions, SchemaCompiler.readOptions, settingD_of_mapping h.left,
    settingD_of_mapping h.right, ok_bind, ok_bind, settingOr, settingOr]
  rcases h.under "options" with hsame | ⟨x, y, hx, hy, hxy⟩
  · rw [hsame]
    exact .refl id _
  · rw [hx, hy]
    cases hxy with
    | options hshuffled =>
      exact endAlike_of_iff (OptionSet.ofValue_shuffled hnames hshuffled owner) id
    | parts hpart => exact absurd hpart (options_not_part kind _)

/-- Parts are read alike, one by one. -/
theorem readEach {α γ : Type} {read : Value → Except Fault α} {k : α → γ} {key : String}
    (listed : RecordKind) (hkey : (key, listed) ∈ kind.grammar.parts)
    (hread : ∀ p q, ReadAlike listed p q → EndAlike k (read p) (read q)) :
    EndAlike (List.map k) (readEach read key d) (readEach read key e) := by
  rw [SchemaCompiler.readEach, SchemaCompiler.readEach, settingD_of_mapping h.left,
    settingD_of_mapping h.right, ok_bind, ok_bind, settingOr, settingOr]
  rcases h.under key with hsame | ⟨x, y, hx, hy, hxy⟩
  · rw [hsame]
    exact .refl _ _
  · rw [hx, hy, Option.getD_some, Option.getD_some]
    cases hxy with
    | options hshuffled => exact absurd hkey (options_not_part kind listed)
    | parts hpart hps hqs hall =>
      rw [← listed_unique hkey hpart] at hall
      rw [hps, hqs, ok_bind, ok_bind]
      exact .mapM (hall.imp hread)

theorem readEach_same {α : Type} {read : Value → Except Fault α} {key : String}
    (listed : RecordKind) (hkey : (key, listed) ∈ kind.grammar.parts)
    (hread : ∀ p q, ReadAlike listed p q → EndAlike id (read p) (read q)) :
    EndAlike id (SchemaCompiler.readEach read key d) (SchemaCompiler.readEach read key e) := by
  have heach := h.readEach listed hkey hread
  rw [List.map_id_fun] at heach
  exact heach

end Matches

section Kinds

variable {d e : Value}

theorem Field.ofValue_matches (h : Matches .field d e) :
    EndAlike id (Field.ofValue d) (Field.ofValue e) :=
  (h.require (by decide) _).andThen fun name =>
    (h.require (by decide) _).andThen fun type =>
      (h.readOptions (Or.inr (by decide)) _).andThen fun options => .refl id _

theorem Index.ofValue_matches (h : Matches .index d e) :
    EndAlike id (Index.ofValue d) (Index.ofValue e) :=
  (h.require (by decide) _).andThen fun columns =>
    (EndAlike.refl id columns.items).andThen fun fields =>
      (h.readOptions (Or.inr (by decide)) _).andThen fun options => .refl id _

theorem Policy.ofValue_matches (h : Matches .policy d e) :
    EndAlike id (Policy.ofValue d) (Policy.ofValue e) := by
  rw [Policy.ofValue, Policy.ofValue, h.settingD _ (by decide)]
  exact (EndAlike.refl id _).andThen fun description =>
    (h.require (by decide) _).andThen fun action =>
      (h.require (by decide) _).andThen fun condition =>
        (h.readOptions (Or.inl rfl) _).andThen fun options => .refl id _

theorem Trigger.ofValue_matches (h : Matches .trigger d e) :
    EndAlike id (Trigger.ofValue d) (Trigger.ofValue e) :=
  (h.require (by decide) _).andThen fun name =>
    (h.require (by decide) _).andThen fun events =>
      (EndAlike.refl id events.items).andThen fun events =>
        (h.require (by decide) _).andThen fun body =>
          (h.readOptions (Or.inr (by decide)) _).andThen fun options => .refl id _

theorem Relationship.make_bare (kind name : Value) (options other : List (Value × Value)) :
    EndAlike Relationship.bare (make kind name options) (make kind name other) := by
  rw [make, make]
  exact (EndAlike.refl id _).andThen fun kind => Eq.refl _

/-- The options of a relationship are kept in their order, whatever it is. -/
theorem Relationship.ofValue_matches (h : Matches .relationship d e) :
    EndAlike Relationship.bare (Relationship.ofValue d) (Relationship.ofValue e) := by
  refine (h.require (by decide) _).andThen fun name =>
    (h.require (by decide) _).andThen fun kind => ?_
  rw [settingD_of_mapping h.left, settingD_of_mapping h.right, ok_bind, ok_bind, settingOr,
    settingOr]
  have hgiven : ∀ es : List (Value × Value), (do
      let options ← if (Value.mapping es).isTrue then (Value.mapping es).entries else .ok []
      make kind name options) = make kind name es := fun es => by cases es <;> rfl
  rcases h.under "options" with hsame | ⟨x, y, hx, hy, hxy⟩
  · rw [hsame]
    exact .refl _ _
  · rw [hx, hy, Option.getD_some, Option.getD_some]
    cases hxy with
    | options hshuffled =>
      rw [hgiven, hgiven]
      exact make_bare kind name _ _
    | parts hpart => exact absurd hpart (options_not_part _ _)

theorem Table.checked_bare {t u : Table} (h : t.bare = u.bare) :
    EndAlike Table.bare t.checked u.checked := by
  have hname : t.name = u.name := show t.bare.name = u.bare.name by rw [h]
  have hfields : t.fields = u.fields := show t.bare.fields = u.bare.fields by rw [h]
  rw [checked, checked, hname, hfields]
  exact (EndAlike.refl id _).andThen fun _ => congrArg some h

theorem Table.ofValue_matches (h : Matches .table d e) :
    EndAlike Table.bare (Table.ofValue d) (Table.ofValue e) := by
  have hrls := h.settingD "rls_enabled" (by decide) (.bool false)
  rw [Table.ofValue, Table.ofValue, hrls]
  exact (h.require (by decide) _).andThen fun name =>
    (h.readEach_same .field (by decide) fun _ _ hp => hp).andThen fun fields =>
    (h.readEach_same .index (by decide) fun _ _ hp => hp).andThen fun indexes =>
    (h.readEach_same .policy (by decide) fun _ _ hp => hp).andThen fun policies =>
    (h.readEach_same .trigger (by decide) fun _ _ hp => hp).andThen fun triggers =>
    (h.readEach .relationship (by decide) fun _ _ hp => hp).bind
      fun relationships other hother =>
    (EndAlike.refl id _).andThen fun rls =>
    (h.readOptions (Or.inr (by decide)) _).andThen fun options =>
      checked_bare (by simp only [bare, hother])

theorem Function.ofValue_matches (h : Matches .function d e) :
    EndAlike id (Function.ofValue d) (Function.ofValue e) := by
  have hargs := h.settingD "args" (by decide) (.list [])
  rw [Function.ofValue, Function.ofValue, hargs]
  exact (h.require (by decide) _).andThen fun name =>
    (EndAlike.refl id _).andThen fun listed =>
    (EndAlike.refl id _).andThen fun args =>
    (h.require (by decide) _).andThen fun returnType =>
    (h.require (by decide) _).andThen fun body =>
    (h.readOptions (Or.inr (by decide)) _).andThen fun options => .refl id _

theorem View.ofValue_matches (h : Matches .view d e) :
    EndAlike id (View.ofValue d) (View.ofValue e) :=
  (h.require (by decide) _).andThen fun name =>
    (h.require (by decide) _).andThen fun query =>
    (h.readOptions (Or.inr (by decide)) _).andThen fun options => .refl id _

theorem CustomType.ofValue_matches (h : Matches .customType d e) :
    EndAlike id (CustomType.ofValue d) (CustomType.ofValue e) := by
  simp only [CustomType.ofValue, h.settingD "values" (by decide),
    h.settingD "fields" (by decide), h.settingD "base_type" (by decide),
    h.settingD "constraint" (by decide)]
  exact (h.require (by decide) _).andThen fun name =>
    (h.require (by decide) _).andThen fun kind => .refl id _

theorem StorageBucket.ofValue_matches (h : Matches .storageBucket d e) :
    EndAlike id (StorageBucket.ofValue d) (StorageBucket.ofValue e) :=
  (h.require (by decide) _).andThen fun name =>
    (h.readEach_same .policy (by decide) fun _ _ hp => hp).andThen fun policies =>
    (h.readOptions (Or.inr (by decide)) _).andThen fun options => .refl id _

theorem Schema.checked_bare {s u : Schema} (h : s.bare = u.bare) :
    EndAlike Schema.bare s.checked u.checked := by
  have htables : s.tables.map Table.bare = u.tables.map Table.bare := congrArg Schema.tables h
  have hnames : (s.tables.map fun t => Except.ok (ε := Fault) t.name) =
      u.tables.map fun t => .ok t.name := by
    have hall := congrArg (List.map fun t => Except.ok (ε := Fault) t.name) htables
    rw [List.map_map, List.map_map] at hall
    exact hall
  rw [checked, checked, hnames]
  exact (EndAlike.refl id _).andThen fun _ => congrArg some h

theorem Schema.ofValue_matches (h : Matches .schema d e) :
    EndAlike Schema.bare (Schema.ofValue d) (Schema.ofValue e) := by
  obtain ⟨es, rfl⟩ := h.left
  obtain ⟨fs, rfl⟩ := h.right
  exact (h.readEach .table (by decide) fun _ _ hp => hp).bind
      fun tables other hother =>
    (h.readEach_same .function (by decide) fun _ _ hp => hp).andThen fun functions =>
    (h.readEach_same .view (by decide) fun _ _ hp => hp).andThen fun views =>
    (h.readEach_same .storageBucket (by decide) fun _ _ hp => hp).andThen
      fun buckets =>
    (h.readEach_same .customType (by decide) fun _ _ hp => hp).andThen
      fun customTypes => checked_bare (by simp only [bare, hother])

end Kinds

/-- Definitions that have the same under each key, but for options and parts, are read alike. -/
theorem Matches.readAlike {kind : RecordKind} {d e : Value} (h : Matches kind d e) :
    ReadAlike kind d e := by
  cases kind with
  | field => exact Field.ofValue_matches h
  | index => exact Index.ofValue_matches h
  | policy => exact Policy.ofValue_matches h
  | trigger => exact Trigger.ofValue_matches h
  | relationship => exact Relationship.ofValue_matches h
  | table => exact Table.ofValue_matches h
  | function => exact Function.ofValue_matches h
  | view => exact View.ofValue_matches h
  | customType => exact CustomType.ofValue_matches h
  | storageBucket => exact StorageBucket.ofValue_matches h
  | schema => exact Schema.ofValue_matches h
  | _ => exact trivial

/-- **Definitions that differ only in the order of keys are read alike.** -/
theorem readAlike_of_reordered {kind : RecordKind} {d e : Value} (h : Reordered kind d e) :
    ReadAlike kind d e := by
  -- each step changes what stands under at most one key, and what comes there is as good
  induction h with
  | refl kind d => exact .refl kind d
  | trans _ _ ih ih' => exact ih.trans ih'
  | keys hperm hdifferent =>
    exact Matches.readAlike ⟨⟨_, rfl⟩, ⟨_, rfl⟩,
      fun key => Or.inl (find_of_perm hperm hdifferent key)⟩
  | options hshuffled => exact (matches_replaced (.options hshuffled)).readAlike
  | @part kind listed key before after list front rest p q hkey hlist _ ih =>
    have hitems : ∀ items, (list items).items = .ok items := by
      rcases hlist with rfl | rfl <;> exact fun items => rfl
    have hall : List.Forall₂ (ReadAlike listed) (front ++ p :: rest) (front ++ q :: rest) :=
      List.rel_append (List.forall₂_refl front) (.cons ih (List.forall₂_refl rest))
    exact (matches_replaced (.parts hkey (hitems _) (hitems _) hall)).readAlike

/-! ### What is made of a schema -/

theorem Traced.each_map {α β γ : Type} (f : β → Traced γ) (g : α → β) (as : List α) :
    each f (as.map g) = each (fun a => f (g a)) as := by
  induction as with
  | nil => rfl
  | cons a as ih => rw [List.map_cons, each, each, ih]

/-- A block for a table, without the options of its relationships. -/
def Statement.bare : Statement → Statement
  | .table t => .table t.bare
  | .rowSecurity t => .rowSecurity t.bare
  | .policies t => .policies t.bare
  | .indexes t => .indexes t.bare
  | .triggers t => .triggers t.bare
  | s => s

theorem Statement.render_bare (s : Statement) : s.bare.render = s.render := by
  cases s <;> rfl

theorem Table.statements_bare (t : Table) :
    t.bare.statements = t.statements.map Statement.bare := by
  simp only [statements, List.map_cons, List.map_append, apply_ite (List.map Statement.bare),
    List.map_nil]
  rfl

theorem Schema.tables_bare (s : Schema) : s.bare.tables = s.tables.map Table.bare := rfl

theorem Schema.statements_bare (s : Schema) :
    s.bare.statements = s.statements.map Statement.bare := by
  simp only [statements, bare, List.map_append, List.map_map, List.flatMap_map, List.map_flatMap,
    Table.statements_bare, StorageBucket.statements, List.map_cons]
  rfl

/-- The SQL of a schema has nothing from the options of its relationships. -/
theorem compileSchema_bare (s : Schema) : compileSchema s.bare = compileSchema s := by
  have hall : Statement.renderAll s.bare.statements = Statement.renderAll s.statements := by
    rw [Schema.statements_bare, Statement.renderAll, Traced.each_map]
    exact congrArg (Traced.each · s.statements) (funext Statement.render_bare)
  have hsummary : s.bare.summary = s.summary := by
    delta Schema.summary
    rw [Schema.tables_bare, List.length_map]
    rfl
  rw [compileSchema, compileSchema, hall, hsummary]

theorem compile_bare (schemas : List Schema) :
    compile (schemas.map Schema.bare) = compile schemas := by
  rw [compile, compile, Traced.each_map]
  exact congrArg (Traced.each · schemas >>= _) (funext compileSchema_bare)

namespace RowSecurity

theorem table?_bare (s : Schema) (name : Value) :
    s.bare.table? name = (s.table? name).map Table.bare := by
  rw [Schema.table?, Schema.table?, Schema.tables_bare, List.find?_map]
  rfl

/-- The changes from one schema to another have nothing from the options of relationships. -/
theorem schemaChanges_bare (old new : Schema) :
    schemaChanges old.bare new.bare = schemaChanges old new := by
  have hgone : (old.bare.tables.filter fun t => (new.bare.table? t.name).isNone) =
      (old.tables.filter fun t => (new.table? t.name).isNone).map Table.bare := by
    rw [Schema.tables_bare, List.filter_map]
    simp only [table?_bare, Option.isNone_map]
    rfl
  rw [schemaChanges, schemaChanges, hgone, Schema.tables_bare, Traced.each_map, Traced.each_map]
  simp only [table?_bare, Option.map_map]
  rfl

end RowSecurity

/-! ### Schemas -/

/-- **The order of keys does not matter.**  Of two definitions that differ only in the order of
keys, both are accepted or none is; and the schemas that are read from them compile to the same,
alone or among others, and change policies in the same way, from any schema and to any schema. -/
theorem Schema.reordered_same {d e : Value} (h : Reordered .schema d e) :
    (Succeeds (Schema.ofValue d) ↔ Succeeds (Schema.ofValue e)) ∧
    ∀ s u, Schema.ofValue d = .ok s → Schema.ofValue e = .ok u →
      (∀ before after, compile (before ++ s :: after) = compile (before ++ u :: after)) ∧
      ∀ other, RowSecurity.schemaChanges s other = RowSecurity.schemaChanges u other ∧
        RowSecurity.schemaChanges other s = RowSecurity.schemaChanges other u := by
  have halike : EndAlike Schema.bare (Schema.ofValue d) (Schema.ofValue e) :=
    readAlike_of_reordered h
  refine ⟨halike.succeeds_iff, fun s u hs hu => ?_⟩
  rw [hs, hu] at halike
  have hbare : s.bare = u.bare := halike.eq_of_ok
  refine ⟨fun before after => ?_, fun other => ⟨?_, ?_⟩⟩
  · rw [← compile_bare, ← compile_bare (before ++ u :: after)]
    simp only [List.map_append, List.map_cons, hbare]
  · rw [← RowSecurity.schemaChanges_bare, hbare, RowSecurity.schemaChanges_bare]
  · rw [← RowSecurity.schemaChanges_bare, hbare, RowSecurity.schemaChanges_bare]

/-- The keys of a table with one field, which has options. -/
def notesKeys (options : List (Value × Value)) : List (Value × Value) :=
  [(.text "name", .text "notes"), (.text "fields", .list [.mapping [(.text "name", .text "id"),
    (.text "type", .text "uuid"), (.text "options", .mapping options)]])]

def notesOptions : List (Value × Value) :=
  [(.text "null", .bool false), (.text "unique", .bool true)]

/-- A schema of one table, with the keys of this table. -/
def ofTable (keys : List (Value × Value)) : Value :=
  .mapping [(.text "tables", .list [.mapping keys])]

theorem reordered_notes : Reordered .schema (ofTable (notesKeys notesOptions))
    (ofTable (notesKeys notesOptions.reverse).reverse) := by
  have hoptions : Shuffled .field notesOptions notesOptions.reverse :=
    ⟨.swap _ _ _, by simp [Different, notesOptions, ← Bool.not_eq_true, same_text_left], nofun⟩
  have hfield := @Reordered.options .field
    [(.text "name", .text "id"), (.text "type", .text "uuid")] [] _ _ hoptions
  have hinside := @Reordered.parts .table .field "fields" [(.text "name", .text "notes")] [] .list
    [] _ _ (by decide) (Or.inl rfl) (.cons hfield .nil)
  have htable := hinside.trans (.keys (List.reverse_perm _).symm
    (by simp [Different, ← Bool.not_eq_true, same_text_left]))
  exact @Reordered.parts .schema .table "tables" [] [] .list [] _ _ (by decide) (Or.inl rfl)
    (.cons htable .nil)

/-- The keys of a table and the options of its field, both the other way round. -/
theorem Schema.reordered_same_notes : ∃ s u,
    Schema.ofValue (ofTable (notesKeys notesOptions)) = .ok s ∧
      Schema.ofValue (ofTable (notesKeys notesOptions.reverse).reverse) = .ok u ∧
      compile [s] = compile [u] := by
  have hread : (Schema.ofValue (ofTable (notesKeys notesOptions))).toOption.isSome = true := by
    decide +kernel
  obtain ⟨hsucceeds, hsame⟩ := Schema.reordered_same reordered_notes
  cases hs : Schema.ofValue (ofTable (notesKeys notesOptions)) with
  | error fault =>
    rw [hs] at hread
    exact nomatch hread
  | ok s =>
    obtain ⟨u, hu⟩ := hsucceeds.1 ⟨s, hs⟩
    exact ⟨s, u, rfl, hu, (hsame s u hs hu).1 [] []⟩

end SchemaCompiler
