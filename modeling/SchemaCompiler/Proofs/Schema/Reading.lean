import SchemaCompiler.Proofs.Outcome
import SchemaCompiler.Proofs.Value.Equality
import SchemaCompiler.Schema.Policy

/-!
# Reading definitions

What has been read from a definition, once reading it went well: the value that the definition has
under the key.

* `Value.settingOr`, `Value.listed` — a setting and a list of a definition, without the faults;
* `settingD_eq_ok`, `require_eq_ok`, `readEach_eq_ok` — **what is read is what stands there**;
* `Value.keywords` — options as they are given by name;
* `settings_eq_ok_iff` — which mappings are read as options, and what is read;
* `lookup_of_perm` — the order of a list without repeated keys does not matter to a lookup.
-/

namespace SchemaCompiler

/-- Where no key is repeated, what stands under one does not depend on the order. -/
theorem lookup_of_perm {α : Type} {entries other : List (String × α)} (h : entries.Perm other)
    (hnodup : (entries.map Prod.fst).Nodup) (name : String) :
    other.lookup name = entries.lookup name := by
  induction h with
  | nil => rfl
  | cons entry h ih =>
    rw [List.lookup_cons, List.lookup_cons, ih (List.nodup_cons.1 hnodup).2]
  | swap entry entry' rest =>
    obtain ⟨a, x⟩ := entry
    obtain ⟨b, y⟩ := entry'
    have hne : b ≠ a := fun heq => (List.nodup_cons.1 hnodup).1 (heq ▸ List.mem_cons_self)
    simp only [List.lookup_cons]
    by_cases hname : name = a
    · rw [hname, beq_eq_false_iff_ne.2 hne.symm]
    · rw [beq_eq_false_iff_ne.2 hname]
  | trans h h' ih ih' =>
    rw [ih' ((h.map Prod.fst).nodup_iff.1 hnodup), ih hnodup]

namespace Value

/-- The value of a setting, or what stands for it. -/
def settingOr (v : Value) (key : String) (default : Value) : Value := (v.get? key).getD default

/-- The things listed under a key; a missing list is empty. -/
def listed (v : Value) (key : String) : List Value :=
  match (v.settingOr key (.list [])).items with
  | .ok vs => vs
  | .error _ => []

/-! ### Settings -/

theorem settingD_eq_ok {v : Value} {key : String} {default found : Value}
    (h : v.settingD key default = .ok found) : v.settingOr key default = found := by
  cases v with
  | mapping es => exact Except.ok.inj h
  | _ => cases h

/-- Looking for a text among keys finds the first entry with this key. -/
theorem find?_same_text (key : String) (es : List (Value × Value)) :
    (es.find? fun e => same (.text key) e.1).map Prod.snd = get?.find key es := by
  induction es with
  | nil => rfl
  | cons e es ih =>
    obtain ⟨k, v⟩ := e
    rw [List.find?_cons]
    by_cases hk : k = .text key
    · subst hk
      rw [same_text_left.2 rfl, get?.find, if_pos rfl]
      rfl
    · have hsame : same (.text key) k = false := Bool.eq_false_iff.2 (mt same_text_left.1 hk)
      rw [hsame]
      cases k with
      | text s =>
        rw [get?.find, if_neg fun h => hk (congrArg Value.text h)]
        exact ih
      | _ => exact ih

theorem under_text_eq_ok {v : Value} {key : String} {found : Value}
    (h : under (.text key) v = .ok found) : v.get? key = some found := by
  cases v with
  | mapping es =>
    rw [get?, ← find?_same_text]
    rw [under] at h
    split at h
    next e he => rw [he, ← Except.ok.inj h]; rfl
    next => cases h
  | _ => cases h

/-- What a definition has to have is there, and is not null. -/
theorem require_eq_ok {v : Value} {key owner : String} {found : Value}
    (h : v.require key owner = .ok found) : v.get? key = some found ∧ found ≠ .null := by
  obtain ⟨there, hholds, h⟩ := bind_eq_ok.1 h
  cases there with
  | false => cases h
  | true =>
    rw [if_pos rfl] at h
    obtain ⟨there, hthere, h⟩ := bind_eq_ok.1 h
    cases there with
    | null => cases h
    | _ =>
      cases h
      exact ⟨under_text_eq_ok hthere, by simp⟩

theorem settingOr_of_require {v : Value} {key owner : String} {default found : Value}
    (h : v.require key owner = .ok found) : v.settingOr key default = found := by
  rw [settingOr, (require_eq_ok h).1, Option.getD_some]

end Value

theorem readEach_eq_ok {α : Type} {read : Value → Except Fault α} {key : String}
    {definition : Value} {found : List α} (h : readEach read key definition = .ok found) :
    (definition.listed key).mapM read = .ok found := by
  obtain ⟨setting, hsetting, h⟩ := bind_eq_ok.1 h
  obtain ⟨vs, hvs, h⟩ := bind_eq_ok.1 h
  rw [Value.listed, Value.settingD_eq_ok hsetting, hvs]
  exact h

/-- What names a member of a vocabulary is not absent, and what is not absent names one. -/
theorem Vocabulary.exists_of_read {α : Type} [Vocabulary α] {value : Value} {what : String}
    {found : Option α} (h : Vocabulary.read α value what = .ok found) (hvalue : value ≠ .null) :
    ∃ m, found = some m := by
  simp only [Vocabulary.read] at h
  split at h
  next => exact absurd rfl hvalue
  next =>
    split at h
    next m _ => exact ⟨m, (Except.ok.inj h).symm⟩
    next =>
      split at h
      next m _ => exact ⟨m, (Except.ok.inj h).symm⟩
      next => cases h
  next =>
    split at h
    next m _ => exact ⟨m, (Except.ok.inj h).symm⟩
    next => cases h

/-! ### Options -/

/-- Options as they are given by name: those of a mapping, or of such a set. -/
def Value.keywords : Value → List (String × Value)
  | .mapping es => es.filterMap fun
    | (.text k, v) => some (k, v)
    | _ => none
  | .record _ attributes => attributes
  | _ => []

/-- An entry of a mapping for an option given by name. -/
def entryOf (o : String × Value) : Value × Value := (.text o.1, o.2)

theorem keywords_mapping (options : List (String × Value)) :
    (Value.mapping (options.map entryOf)).keywords = options := by
  rw [Value.keywords, List.filterMap_map]
  exact List.filterMap_some

namespace OptionSet

/-- **A mapping is read as options if its keys are texts and name options.** -/
theorem settings_eq_ok_iff {names : List String} {owner : String} {es : List (Value × Value)}
    {given : List (String × Value)} : settings names owner es = .ok given ↔
      ∃ options : List (String × Value), es = options.map entryOf ∧
        (∀ o ∈ options, nameOfKey o.1 ∈ names) ∧
        given = options.map fun o => (nameOfKey o.1, o.2) := by
  induction es generalizing given with
  | nil =>
    constructor
    · intro h
      exact ⟨[], rfl, nofun, (Except.ok.inj h).symm⟩
    · rintro ⟨options, hes, -, rfl⟩
      rw [List.map_eq_nil_iff.1 hes.symm]
      rfl
  | cons e es ih =>
    obtain ⟨key, value⟩ := e
    constructor
    · intro h
      cases key with
      | text k =>
        simp only [settings] at h
        split at h
        next hknown =>
          obtain ⟨rest, hrest, rfl⟩ := map_eq_ok.1 h
          obtain ⟨options, rfl, hnames, rfl⟩ := ih.1 hrest
          refine ⟨(k, value) :: options, rfl, ?_, rfl⟩
          exact List.forall_mem_cons.2 ⟨List.contains_iff_mem.1 hknown, hnames⟩
        next => exact nomatch h
      | _ => exact nomatch h
    · rintro ⟨options, hes, hnames, rfl⟩
      cases options with
      | nil => exact nomatch hes
      | cons o options =>
        obtain ⟨he, rfl⟩ := List.cons.inj hes
        obtain ⟨hname, hnames⟩ := List.forall_mem_cons.1 hnames
        rw [entryOf, Prod.mk.injEq] at he
        obtain ⟨rfl, rfl⟩ := he
        simp only [settings]
        rw [if_pos (List.contains_iff_mem.2 hname), ih.2 ⟨options, rfl, hnames, rfl⟩]
        rfl

end OptionSet

end SchemaCompiler
