import SchemaCompiler.Proofs.Outcome
import SchemaCompiler.Value.Reading

/-!
# Equality of names and settings

What `Value.same` says about the values that stand as names and settings.

* `same_refl` — every value is the same as itself, down to the last item and entry;
* `same_text_left`, `same_text_right` — a text is the same as nothing but that text;
* `eq_of_same` — values that are absent, texts or lists of texts are the same only when equal;
* `checkDistinct_eq_ok_iff` — **what the search for a repeated name accepts**: names that can be
  keys, each different from all before it;
* `checkDistinct_eq_error_iff` — which names it refuses: one that was seen before.
-/

namespace SchemaCompiler.Value

/-! ### Every value is the same as itself -/

theorem sameAtom_refl (v : Value) (hlist : ∀ xs, v ≠ .list xs) (htuple : ∀ xs, v ≠ .tuple xs)
    (hmapping : ∀ es, v ≠ .mapping es) (hrecord : ∀ k xs, v ≠ .record k xs) :
    sameAtom v v = true := by
  cases v with
  | null => rfl
  | bool b => simp [sameAtom, quantity?]
  | int n => simp [sameAtom, quantity?]
  | float x => cases x <;> simp [sameAtom, quantity?, infinity?, Number.Binary64.quantity?]
  | decimal d => cases d <;> simp [sameAtom, quantity?, infinity?, Number.Decimal.quantity?]
  | text s => simp [sameAtom]
  | member m => simp [sameAtom]
  | list xs => exact absurd rfl (hlist xs)
  | tuple xs => exact absurd rfl (htuple xs)
  | mapping es => exact absurd rfl (hmapping es)
  | record k xs => exact absurd rfl (hrecord k xs)

mutual

/-- **Nothing distinguishes a value from itself.** -/
theorem same_refl : ∀ v : Value, same v v = true
  | .list xs => by simp only [same, sameItems_refl xs]
  | .tuple xs => by simp only [same, sameItems_refl xs]
  | .mapping es => by
    simp only [same, beq_self_eq_true, Bool.true_and]
    exact sameEntries_of_subset es es (List.Subset.refl es)
  | .record k xs => by simp only [same, beq_self_eq_true, Bool.true_and, sameAttributes_refl xs]
  | .null => by simp only [same]; exact sameAtom_refl _ nofun nofun nofun nofun
  | .bool b => by simp only [same]; exact sameAtom_refl _ nofun nofun nofun nofun
  | .int n => by simp only [same]; exact sameAtom_refl _ nofun nofun nofun nofun
  | .float x => by simp only [same]; exact sameAtom_refl _ nofun nofun nofun nofun
  | .decimal d => by simp only [same]; exact sameAtom_refl _ nofun nofun nofun nofun
  | .text s => by simp only [same]; exact sameAtom_refl _ nofun nofun nofun nofun
  | .member m => by simp only [same]; exact sameAtom_refl _ nofun nofun nofun nofun

theorem sameItems_refl : ∀ xs : List Value, sameItems xs xs = true
  | [] => by simp only [sameItems, List.isEmpty_nil]
  | x :: xs => by simp only [sameItems, same_refl x, sameItems_refl xs, Bool.and_self]

/-- Entries are found in any mapping that holds them all. -/
theorem sameEntries_of_subset :
    ∀ es ys : List (Value × Value), es ⊆ ys → sameEntries es ys = true
  | [], _, _ => by simp only [sameEntries]
  | (k, v) :: es, ys, h => by
    have hk : same k k = true := same_refl k
    have hv : same v v = true := same_refl v
    have hmem : (k, v) ∈ ys := h List.mem_cons_self
    have hrest : sameEntries es ys = true :=
      sameEntries_of_subset es ys fun e he => h (List.mem_cons_of_mem _ he)
    simp only [sameEntries, hrest, Bool.and_true, List.any_eq_true]
    exact ⟨(k, v), hmem, by rw [hk, hv]; rfl⟩

theorem sameAttributes_refl : ∀ xs : List (String × Value), sameAttributes xs xs = true
  | [] => by simp only [sameAttributes, List.isEmpty_nil]
  | (_, x) :: xs => by
    simp only [sameAttributes, same_refl x, sameAttributes_refl xs, Bool.and_self]

end

/-! ### Texts -/

/-- A value that is a text, as a name should be. -/
def IsText (v : Value) : Prop := ∃ s, v = .text s

theorem same_text_left {s : String} {v : Value} : same (.text s) v = true ↔ v = .text s := by
  cases v <;> simp [same, sameAtom, quantity?, infinity?]
  exact eq_comm

theorem same_text_right {s : String} {v : Value} : same v (.text s) = true ↔ v = .text s := by
  cases v <;> simp [same, sameAtom, quantity?, infinity?]

theorem IsText.same_iff {v : Value} (hv : IsText v) {w : Value} : same v w = true ↔ v = w := by
  obtain ⟨s, rfl⟩ := hv
  rw [same_text_left]
  exact eq_comm

theorem IsText.same_iff' {w : Value} (hw : IsText w) {v : Value} : same v w = true ↔ v = w := by
  obtain ⟨s, rfl⟩ := hw
  exact same_text_right

theorem IsText.isHashable {v : Value} (hv : IsText v) : v.isHashable = true := by
  obtain ⟨s, rfl⟩ := hv
  rfl

theorem IsText.equal_iff {w : Value} (hw : IsText w) {v : Value} :
    equal v w = true ↔ v = w := by
  unfold equal
  rw [Bool.and_eq_true, hw.same_iff']
  constructor
  · exact And.left
  · intro h
    subst h
    obtain ⟨s, rfl⟩ := hw
    exact ⟨rfl, rfl⟩

/-- Texts that look the same are the same. -/
theorem IsText.toText_inj {v w : Value} (hv : IsText v) (hw : IsText w) :
    v.toText = w.toText ↔ v = w := by
  obtain ⟨s, rfl⟩ := hv
  obtain ⟨t, rfl⟩ := hw
  simp [toText]

/-! ### Values that are the same only when equal -/

/-- A setting in its usual form: absent, a text, or a list of texts. -/
def IsPlain : Value → Prop
  | .null => True
  | .text _ => True
  | .list vs => ∀ v ∈ vs, IsText v
  | _ => False

theorem eq_of_sameItems {xs ys : List Value} (hy : ∀ y ∈ ys, IsText y)
    (h : sameItems xs ys = true) : xs = ys := by
  induction xs generalizing ys with
  | nil =>
    cases ys with
    | nil => rfl
    | cons y ys => simp [sameItems] at h
  | cons x xs ih =>
    cases ys with
    | nil => simp [sameItems] at h
    | cons y ys =>
      simp only [sameItems, Bool.and_eq_true] at h
      have hxy : x = y := (hy y List.mem_cons_self).same_iff'.1 h.1
      rw [hxy, ih (fun z hz => hy z (List.mem_cons_of_mem _ hz)) h.2]

theorem eq_of_same {v w : Value} (hw : IsPlain w) (h : same v w = true) : v = w := by
  cases w with
  | null => cases v <;> simp_all [same, sameAtom, quantity?, infinity?]
  | text s => exact same_text_right.1 h
  | list ys =>
    cases v with
    | list xs =>
      have hitems : sameItems xs ys = true := by simpa only [same] using h
      rw [eq_of_sameItems hw hitems]
    | _ => simp [same, sameAtom, quantity?, infinity?] at h
  | _ => exact absurd hw (by simp [IsPlain])

/-! ### Names without repetition -/

/-- **The names that are accepted**: each can be a key, and each differs from those seen before and
from all names after it. -/
theorem checkDistinct_eq_ok_iff (duplicate : Value → Fault) (seen names : List Value) :
    checkDistinct duplicate seen (names.map .ok) = .ok () ↔
      (∀ v ∈ names, v.isHashable = true) ∧ (∀ v ∈ names, ∀ w ∈ seen, same v w = false) ∧
        names.Pairwise fun v w => same w v = false := by
  induction names generalizing seen with
  | nil => simp [checkDistinct]
  | cons name names ih =>
    have step : checkDistinct duplicate seen ((name :: names).map .ok) =
        if !name.isHashable then .error (.misuse .wrongType)
        else if seen.any (same name) then .error (duplicate name)
        else checkDistinct duplicate (name :: seen) (names.map .ok) := rfl
    rw [step]
    cases hkey : name.isHashable with
    | false => simp [hkey]
    | true =>
      cases hseen : seen.any (same name) with
      | true =>
        obtain ⟨w, hw, hsame⟩ := List.any_eq_true.1 hseen
        simp only [Bool.not_true, Bool.false_eq_true, if_false, if_true, reduceCtorEq, false_iff]
        intro h
        have hdiff : same name w = false := h.2.1 name List.mem_cons_self w hw
        rw [hsame] at hdiff
        exact absurd hdiff (by decide)
      | false =>
        have hfresh : ∀ w ∈ seen, same name w = false := by simpa using hseen
        simp only [Bool.not_true, Bool.false_eq_true, if_false, ih, List.forall_mem_cons,
          List.pairwise_cons, hkey, true_and]
        constructor
        · rintro ⟨hkeys, hnew, hpairs⟩
          exact ⟨hkeys, ⟨hfresh, fun v hv w hw => (hnew v hv).2 w hw⟩,
            fun v hv => (hnew v hv).1, hpairs⟩
        · rintro ⟨hkeys, ⟨-, hnew⟩, hfirst, hpairs⟩
          exact ⟨hkeys, fun v hv => ⟨hfirst v hv, hnew v hv⟩, hpairs⟩

/-- Names that are accepted are not repeated. -/
theorem nodup_of_checkDistinct {duplicate : Value → Fault} {names : List Value}
    (h : checkDistinct duplicate [] (names.map .ok) = .ok ()) : names.Nodup := by
  have hpairs := ((checkDistinct_eq_ok_iff duplicate [] names).1 h).2.2
  refine hpairs.imp ?_
  intro v w hne heq
  subst heq
  rw [same_refl] at hne
  exact absurd hne (by decide)

/-- No name is repeated. -/
def Different (names : List Value) : Prop := names.Pairwise fun v w => same w v = false

/-- A name is repeated, and up to it all names can be keys. -/
def Repeats (names : List Value) : Prop :=
  ∃ before name after, names = before ++ name :: after ∧
    (∀ v ∈ name :: before, v.isHashable = true) ∧ ∃ w ∈ before, same name w = true

/-- Names that do not all differ have a first and a second of one name. -/
theorem exists_same {names : List Value} (h : ¬Different names) :
    ∃ before name after, names = before ++ name :: after ∧ ∃ w ∈ before, same name w = true := by
  induction names with
  | nil => exact absurd List.Pairwise.nil h
  | cons v names ih =>
    by_cases hfirst : ∀ w ∈ names, same w v = false
    · have hrest : ¬Different names := fun hrest => h (List.pairwise_cons.2 ⟨hfirst, hrest⟩)
      obtain ⟨before, name, after, rfl, w, hw, hsame⟩ := ih hrest
      exact ⟨v :: before, name, after, rfl, w, List.mem_cons_of_mem v hw, hsame⟩
    · obtain ⟨w, hw, hsame⟩ : ∃ w ∈ names, same w v = true := by simpa using hfirst
      obtain ⟨before, after, rfl⟩ := List.append_of_mem hw
      exact ⟨v :: before, w, after, rfl, v, List.mem_cons_self, hsame⟩

/-- Where all names can be keys, one is repeated unless they all differ. -/
theorem repeats_iff {names : List Value} (hkeys : ∀ v ∈ names, v.isHashable = true) :
    Repeats names ↔ ¬Different names := by
  constructor
  · rintro ⟨before, name, after, rfl, -, w, hw, hsame⟩ hdifferent
    have hne := (List.pairwise_append.1 hdifferent).2.2 w hw name List.mem_cons_self
    rw [hsame] at hne
    exact nomatch hne
  · intro h
    obtain ⟨before, name, after, rfl, w, hw, hsame⟩ := exists_same h
    refine ⟨before, name, after, rfl, List.forall_mem_cons.2 ⟨?_, fun v hv => ?_⟩, w, hw, hsame⟩
    · exact hkeys name (List.mem_append_right before List.mem_cons_self)
    · exact hkeys v (List.mem_append_left _ hv)

/-- **The names that are refused**: the search comes to a name that was seen before. -/
theorem checkDistinct_eq_error_iff (duplicate : Value → SchemaFault) (seen names : List Value) :
    (∃ cause, checkDistinct (fun v => .schema (duplicate v)) seen (names.map .ok) =
      .error (.schema cause)) ↔
      ∃ before name after, names = before ++ name :: after ∧
        (∀ v ∈ name :: before, v.isHashable = true) ∧ ∃ w ∈ seen ++ before, same name w = true := by
  induction names generalizing seen with
  | nil => simp [checkDistinct]
  | cons name names ih =>
    have step : checkDistinct (fun v => .schema (duplicate v)) seen ((name :: names).map .ok) =
        if !name.isHashable then .error (.misuse .wrongType)
        else if seen.any (same name) then .error (.schema (duplicate name))
        else checkDistinct (fun v => .schema (duplicate v)) (name :: seen) (names.map .ok) := rfl
    rw [step]
    cases hkey : name.isHashable with
    | false =>
      simp only [Bool.not_false, if_true, Except.error.injEq, reduceCtorEq, exists_false, false_iff]
      rintro ⟨before, v, after, hsplit, hkeys, -⟩
      have hname : name ∈ v :: before := by
        cases before with
        | nil => rw [(List.cons.inj hsplit).1]; exact List.mem_cons_self
        | cons u before =>
          rw [(List.cons.inj hsplit).1]
          exact List.mem_cons_of_mem v List.mem_cons_self
      rw [hkeys name hname] at hkey
      exact nomatch hkey
    | true =>
      cases hseen : seen.any (same name) with
      | true =>
        obtain ⟨w, hw, hsame⟩ := List.any_eq_true.1 hseen
        simp only [Bool.not_true, Bool.false_eq_true, if_false, if_true, Except.error.injEq,
          Fault.schema.injEq, exists_eq', true_iff]
        refine ⟨[], name, names, rfl, by simpa using hkey, w, ?_, hsame⟩
        rwa [List.append_nil]
      | false =>
        have hfresh : ∀ w ∈ seen, same name w = false := by simpa using hseen
        simp only [Bool.not_true, Bool.false_eq_true, if_false, ih]
        constructor
        · rintro ⟨before, v, after, rfl, hkeys, w, hw, hsame⟩
          refine ⟨name :: before, v, after, rfl, ?_, w, by simpa [or_left_comm] using hw, hsame⟩
          simp only [List.forall_mem_cons] at hkeys ⊢
          exact ⟨hkeys.1, hkey, hkeys.2⟩
        · rintro ⟨before, v, after, hsplit, hkeys, w, hw, hsame⟩
          cases before with
          | nil =>
            rw [← (List.cons.inj hsplit).1] at hsame
            rw [hfresh w (by simpa using hw)] at hsame
            exact nomatch hsame
          | cons u before =>
            obtain ⟨rfl, rfl⟩ := List.cons.inj hsplit
            simp only [List.forall_mem_cons] at hkeys
            have hkeys' : ∀ u ∈ v :: before, u.isHashable = true :=
              List.forall_mem_cons.2 ⟨hkeys.1, hkeys.2.2⟩
            refine ⟨before, v, after, rfl, hkeys', w, ?_, hsame⟩
            simpa [or_left_comm] using hw

/-- The search ends with the fault of a name that could not be read, on a name that was seen before,
or on one that cannot be a key. -/
theorem fault_of_checkDistinct {duplicate : Value → Fault} {seen : List Value}
    {names : List (Except Fault Value)} {fault : Fault}
    (h : checkDistinct duplicate seen names = .error fault) :
    .error fault ∈ names ∨ (∃ v, fault = duplicate v) ∨ fault = .misuse .wrongType := by
  induction names generalizing seen with
  | nil => exact nomatch h
  | cons name names ih =>
    cases name with
    | error other =>
      rw [← Except.error.inj h]
      exact Or.inl List.mem_cons_self
    | ok v =>
      simp only [checkDistinct, ok_bind] at h
      split at h
      next => exact Or.inr (Or.inr (Except.error.inj h).symm)
      next =>
        split at h
        next => exact Or.inr (Or.inl ⟨v, (Except.error.inj h).symm⟩)
        next => exact (ih h).imp_left (List.mem_cons_of_mem _)

end SchemaCompiler.Value
