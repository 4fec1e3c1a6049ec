import Mathlib.Data.List.Forall2
import SchemaCompiler.Proofs.Value.Equality

/-!
# Names that are the same

Between values that can serve as keys, and so as names, being the same is an equivalence: a policy
or a table may be looked up from either side, and what is the same as the same name is one name.

* `Mark`, `mark?` — what distinguishes values without parts: their number, their text, their kind;
* `sameAtom_eq` — **such values are the same when their marks are**;
* `hashable_induction` — values that can be keys are built from marked values by tuples alone;
* `same_congr` — **what is the same as a key is compared as the key is**;
* `same_symm`, `same_trans`, `same_comm` — the laws of an equivalence;
* `Different.symm` — names that all differ do so from either side.
-/

namespace SchemaCompiler.Value

open Number

/-! ### Values without parts -/

/-- What distinguishes a value without parts from others. -/
inductive Mark where
  | null
  | text (s : String)
  | member (m : Member)
  | quantity (q : Quantity)
  | infinity (negative : Bool)
  | floatNan (tag : Nat)
  | decimalNan (tag : Nat)
  deriving DecidableEq

/-- The mark of a value; none for one that has parts. -/
def mark? : Value → Option Mark
  | .null => some .null
  | .text s => some (.text s)
  | .member m => some (.member m)
  | .float (.nan tag) => some (.floatNan tag)
  | .decimal (.nan _ _ _ tag) => some (.decimalNan tag)
  | v => (v.quantity?.map .quantity).or (v.infinity?.map .infinity)

/-- **Values without parts are the same when their marks are.** -/
theorem sameAtom_eq (v w : Value) : sameAtom v w = (v.mark?.isSome && v.mark? == w.mark?) := by
  -- Not-a-numbers are told apart from other numbers, so numbers are split by their forms as well.
  rcases v with _ | _ | _ | ⟨_ | _ | _⟩ | ⟨_ | _ | _⟩ | _ | _ | _ | _ | _ | _ <;>
    rcases w with _ | _ | _ | ⟨_ | _ | _⟩ | ⟨_ | _ | _⟩ | _ | _ | _ | _ | _ | _ <;>
    simp [sameAtom, mark?, quantity?, infinity?, Binary64.quantity?, Decimal.quantity?]

theorem same_of_mark {v : Value} (hv : v.mark?.isSome = true) (w : Value) :
    same v w = (v.mark? == w.mark?) := by
  have hatom : same v w = sameAtom v w := by
    cases v with
    | list xs => exact absurd hv (by simp [mark?, quantity?, infinity?])
    | tuple xs => exact absurd hv (by simp [mark?, quantity?, infinity?])
    | mapping es => exact absurd hv (by simp [mark?, quantity?, infinity?])
    | record k xs => exact absurd hv (by simp [mark?, quantity?, infinity?])
    | _ => simp only [same]
  rw [hatom, sameAtom_eq, hv, Bool.true_and]

/-- What is the same as a marked value has its mark. -/
theorem mark?_eq_of_same {v w : Value} (hv : v.mark?.isSome = true) (h : same v w = true) :
    w.mark? = v.mark? := by
  rw [same_of_mark hv, beq_iff_eq] at h
  exact h.symm

/-! ### Values with parts -/

theorem allHashable_iff {vs : List Value} :
    allHashable vs = true ↔ ∀ v ∈ vs, v.isHashable = true := by
  induction vs with
  | nil => simp [allHashable]
  | cons v vs ih => rw [allHashable, Bool.and_eq_true, ih, List.forall_mem_cons]

/-- **Values that can be keys** are marked, or are tuples of such values. -/
theorem hashable_induction {P : Value → Prop} (atom : ∀ v, v.mark?.isSome = true → P v)
    (tuple : ∀ xs, (∀ x ∈ xs, P x) → P (.tuple xs)) (v : Value) (hv : v.isHashable = true) :
    P v := by
  cases h : v with
  | tuple xs =>
    rw [h, isHashable, allHashable_iff] at hv
    exact tuple xs fun x hx => hashable_induction atom tuple x (hv x hx)
  | list xs => exact absurd hv (by simp [h, isHashable])
  | mapping es => exact absurd hv (by simp [h, isHashable])
  | record k xs => exact absurd hv (by simp [h, isHashable])
  | float x => cases x <;> exact atom _ rfl
  | decimal d => cases d <;> exact atom _ rfl
  | _ => exact atom _ rfl
termination_by sizeOf v
decreasing_by
  subst h
  exact Nat.lt_of_lt_of_le (List.sizeOf_lt_of_mem hx) (by simp)

/-- Items are the same place by place. -/
theorem sameItems_iff {xs ys : List Value} :
    sameItems xs ys = true ↔ List.Forall₂ (fun x y => same x y = true) xs ys := by
  induction xs generalizing ys with
  | nil =>
    rw [List.forall₂_nil_left_iff, sameItems, List.isEmpty_iff]
  | cons x xs ih =>
    cases ys with
    | nil => simp [sameItems]
    | cons y ys => simp [sameItems, ih]

theorem same_tuple_iff {xs : List Value} {w : Value} : same (.tuple xs) w = true ↔
    ∃ ys, w = .tuple ys ∧ List.Forall₂ (fun x y => same x y = true) xs ys := by
  cases w with
  | tuple ys =>
    rw [show same (.tuple xs) (.tuple ys) = sameItems xs ys by simp only [same], sameItems_iff]
    simp
  | _ => simp [same]

/-! ### An equivalence -/

/-- **What is the same as a key is compared as the key is.** -/
theorem same_congr {v : Value} (hv : v.isHashable = true) :
    ∀ {w : Value}, same v w = true → ∀ x, same v x = same w x := by
  refine hashable_induction (P := fun v => ∀ {w}, same v w = true → ∀ x, same v x = same w x)
    (fun v hmark => ?_) (fun xs ih => ?_) v hv
  · intro w h x
    have hw := mark?_eq_of_same hmark h
    have hwmark : w.mark?.isSome = true := by rw [hw, hmark]
    rw [same_of_mark hmark, same_of_mark hwmark, hw]
  · intro w h x
    obtain ⟨ys, rfl, hitems⟩ := same_tuple_iff.1 h
    clear h
    have hsame : ∀ zs, sameItems xs zs = sameItems ys zs := by
      induction hitems with
      | nil => exact fun zs => rfl
      | @cons x y xs ys hxy _ ihs =>
        intro zs
        cases zs with
        | nil => rw [sameItems, sameItems]
        | cons z zs =>
          rw [sameItems, sameItems, ih x List.mem_cons_self hxy z,
            ihs fun x' hx' => ih x' (List.mem_cons_of_mem x hx')]
    cases x with
    | tuple zs =>
      show same (.tuple xs) (.tuple zs) = same (.tuple ys) (.tuple zs)
      simp only [same, hsame]
    | _ => simp only [same]

/-- What is the same seen from a key is the same seen from the other side. -/
theorem same_symm {v : Value} (hv : v.isHashable = true) {w : Value} (h : same v w = true) :
    same w v = true := by
  rw [← same_congr hv h, same_refl]

/-- What is the same as the same key is the same. -/
theorem same_trans {u : Value} (hu : u.isHashable = true) {v w : Value} (huv : same u v = true)
    (hvw : same v w = true) : same u w = true := by
  rw [same_congr hu huv, hvw]

theorem same_comm {v w : Value} (hv : v.isHashable = true) (hw : w.isHashable = true) :
    same v w = same w v :=
  Bool.eq_iff_iff.2 ⟨same_symm hv, same_symm hw⟩

/-- Names that all differ do so from either side. -/
theorem Different.symm {names : List Value} (hkeys : ∀ v ∈ names, v.isHashable = true)
    (h : Different names) : names.Pairwise fun v w => same v w = false := by
  refine h.imp_of_mem ?_
  intro v w hv hw hne
  rw [same_comm (hkeys v hv) (hkeys w hw), hne]

end SchemaCompiler.Value
