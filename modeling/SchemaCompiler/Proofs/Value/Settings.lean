import Mathlib.Data.List.Nodup
import Mathlib.Data.List.Perm.Subperm
import SchemaCompiler.Proofs.Value.Equivalence

/-!
# Settings that are the same

A setting need not be a key: roles may be a list, and a definition may give a mapping where a text
is expected.  Such values are compared part by part, and mappings without regard to order, so one
mapping has to be found in another of the same size.  No mapping has one key twice, and that makes
being the same an equivalence here as well.

* `IsProper` — a value in which no mapping has one key twice;
* `same_mapping_iff` — mappings of one size, each entry of the first found in the second;
* `exists_entry_of_same` — then each entry of the second is found in the first;
* `IsProper.same_euclid` — **values that are the same as one value are the same.**
-/

namespace SchemaCompiler.Value

/-- A value in which no mapping has one key twice. -/
inductive IsProper : Value → Prop where
  | atom {v : Value} (mark : v.mark?.isSome = true) : IsProper v
  | list {xs : List Value} (items : ∀ x ∈ xs, IsProper x) : IsProper (.list xs)
  | tuple {xs : List Value} (items : ∀ x ∈ xs, IsProper x) : IsProper (.tuple xs)
  | mapping {es : List (Value × Value)} (keys : ∀ e ∈ es, e.1.isHashable = true)
      (different : Different (es.map Prod.fst)) (values : ∀ e ∈ es, IsProper e.2) :
      IsProper (.mapping es)
  | record {kind : RecordKind} {es : List (String × Value)} (values : ∀ e ∈ es, IsProper e.2) :
      IsProper (.record kind es)

theorem IsPlain.isProper {v : Value} (h : v.IsPlain) : v.IsProper := by
  cases v with
  | null => exact .atom rfl
  | text s => exact .atom rfl
  | list vs =>
    refine .list fun w hw => ?_
    obtain ⟨s, rfl⟩ := h w hw
    exact .atom rfl
  | _ => exact absurd h id

/-! ### Values with parts -/

theorem same_list_iff {xs : List Value} {w : Value} : same (.list xs) w = true ↔
    ∃ ys, w = .list ys ∧ List.Forall₂ (fun x y => same x y = true) xs ys := by
  cases w with
  | list ys =>
    rw [show same (.list xs) (.list ys) = sameItems xs ys by simp only [same], sameItems_iff]
    simp
  | _ => simp [same]

theorem sameEntries_iff {xs ys : List (Value × Value)} : sameEntries xs ys = true ↔
    ∀ e ∈ xs, ∃ e' ∈ ys, same e.1 e'.1 = true ∧ same e.2 e'.2 = true := by
  induction xs with
  | nil => simp [sameEntries]
  | cons e xs ih =>
    obtain ⟨key, value⟩ := e
    rw [sameEntries, Bool.and_eq_true, ih, List.forall_mem_cons, List.any_eq_true]
    simp only [Bool.and_eq_true]

/-- Mappings are the same if they have one size and each entry of the first is in the second. -/
theorem same_mapping_iff {xs : List (Value × Value)} {w : Value} : same (.mapping xs) w = true ↔
    ∃ ys, w = .mapping ys ∧ xs.length = ys.length ∧
      ∀ e ∈ xs, ∃ e' ∈ ys, same e.1 e'.1 = true ∧ same e.2 e'.2 = true := by
  cases w with
  | mapping ys =>
    have hsame : same (.mapping xs) (.mapping ys) =
        (xs.length == ys.length && sameEntries xs ys) := by simp only [same]
    rw [hsame, Bool.and_eq_true, beq_iff_eq, sameEntries_iff]
    simp
  | _ => simp [same]

theorem sameAttributes_iff {xs ys : List (String × Value)} : sameAttributes xs ys = true ↔
    List.Forall₂ (fun x y => same x.2 y.2 = true) xs ys := by
  induction xs generalizing ys with
  | nil => rw [List.forall₂_nil_left_iff, sameAttributes, List.isEmpty_iff]
  | cons x xs ih =>
    obtain ⟨name, v⟩ := x
    cases ys with
    | nil => simp [sameAttributes]
    | cons y ys => rw [sameAttributes, Bool.and_eq_true, ih, List.forall₂_cons]

theorem same_record_iff {kind : RecordKind} {xs : List (String × Value)} {w : Value} :
    same (.record kind xs) w = true ↔
      ∃ ys, w = .record kind ys ∧ List.Forall₂ (fun x y => same x.2 y.2 = true) xs ys := by
  cases w with
  | record kind' ys =>
    have hsame : same (.record kind xs) (.record kind' ys) =
        (kind == kind' && sameAttributes xs ys) := by simp only [same]
    rw [hsame, Bool.and_eq_true, beq_iff_eq, sameAttributes_iff]
    constructor
    · rintro ⟨rfl, hall⟩
      exact ⟨ys, rfl, hall⟩
    · rintro ⟨ys', heq, hall⟩
      cases heq
      exact ⟨rfl, hall⟩
  | _ => simp [same]

/-! ### An equivalence -/

/-- Two lists that go with a third place by place go with each other. -/
theorem forall₂_euclid {α : Type} {R : α → α → Prop} {xs ys zs : List α}
    (h : ∀ x ∈ xs, ∀ y z, R x y → R x z → R y z) (hy : List.Forall₂ R xs ys)
    (hz : List.Forall₂ R xs zs) : List.Forall₂ R ys zs := by
  induction hy generalizing zs with
  | nil =>
    rw [List.forall₂_nil_left_iff.1 hz]
    exact .nil
  | @cons x y xs ys hxy _ ih =>
    obtain ⟨z, rest, hxz, hrest, rfl⟩ := List.forall₂_cons_left_iff.1 hz
    refine .cons (h x List.mem_cons_self y z hxy hxz) (ih (fun x' hx' => ?_) hrest)
    exact h x' (List.mem_cons_of_mem x hx')

/-- **Entries are found from either side.**  If each entry of a mapping is found in another one of
its size, no two of them are found in one place, so no place is left over. -/
theorem exists_entry_of_same {xs ys : List (Value × Value)}
    (hkeys : ∀ e ∈ xs, e.1.isHashable = true) (hdifferent : Different (xs.map Prod.fst))
    (hlength : xs.length = ys.length)
    (h : ∀ e ∈ xs, ∃ e' ∈ ys, same e.1 e'.1 = true ∧ same e.2 e'.2 = true) :
    ∀ e' ∈ ys, ∃ e ∈ xs, same e.1 e'.1 = true ∧ same e.2 e'.2 = true := by
  choose! place hplace hsame using h
  have hnodup : (xs.map place).Nodup := by
    rw [List.Nodup, List.pairwise_map]
    rw [Different, List.pairwise_map] at hdifferent
    refine hdifferent.imp_of_mem fun {e other} he hother hne heq => ?_
    have hsecond : same other.1 (place e).1 = true := heq ▸ (hsame other hother).1
    have hback : same (place e).1 e.1 = true := same_symm (hkeys e he) (hsame e he).1
    rw [same_trans (hkeys other hother) hsecond hback] at hne
    cases hne
  have hsub : xs.map place ⊆ ys := by
    intro e' he'
    obtain ⟨e, he, rfl⟩ := List.mem_map.1 he'
    exact hplace e he
  have hperm : (xs.map place).Perm ys := by
    refine (List.subperm_of_subset hnodup hsub).perm_of_length_le (Nat.le_of_eq ?_)
    rw [List.length_map, hlength]
  intro e' he'
  obtain ⟨e, he, rfl⟩ := List.mem_map.1 (hperm.mem_iff.2 he')
  exact ⟨e, he, hsame e he⟩

/-- **Values that are the same as one value are the same.** -/
theorem IsProper.same_euclid {u : Value} (hu : u.IsProper) :
    ∀ {v w : Value}, same u v = true → same u w = true → same v w = true := by
  induction hu with
  | @atom u hmark =>
    intro v w hv hw
    have hvmark := mark?_eq_of_same hmark hv
    have hwmark := mark?_eq_of_same hmark hw
    rw [same_of_mark (by rw [hvmark, hmark]), hvmark, hwmark, beq_self_eq_true]
  | list items ih =>
    intro v w hv hw
    obtain ⟨ys, rfl, hys⟩ := same_list_iff.1 hv
    obtain ⟨zs, rfl, hzs⟩ := same_list_iff.1 hw
    exact same_list_iff.2 ⟨zs, rfl, forall₂_euclid (fun x hx y z => ih x hx) hys hzs⟩
  | tuple items ih =>
    intro v w hv hw
    obtain ⟨ys, rfl, hys⟩ := same_tuple_iff.1 hv
    obtain ⟨zs, rfl, hzs⟩ := same_tuple_iff.1 hw
    exact same_tuple_iff.2 ⟨zs, rfl, forall₂_euclid (fun x hx y z => ih x hx) hys hzs⟩
  | mapping keys different values ih =>
    intro v w hv hw
    obtain ⟨ys, rfl, hylength, hys⟩ := same_mapping_iff.1 hv
    obtain ⟨zs, rfl, hzlength, hzs⟩ := same_mapping_iff.1 hw
    refine same_mapping_iff.2 ⟨zs, rfl, hylength.symm.trans hzlength, fun y hy => ?_⟩
    obtain ⟨x, hx, hkey, hvalue⟩ := exists_entry_of_same keys different hylength hys y hy
    obtain ⟨z, hz, hkey', hvalue'⟩ := hzs x hx
    refine ⟨z, hz, ?_, ih x hx hvalue hvalue'⟩
    rw [← same_congr (keys x hx) hkey, hkey']
  | record values ih =>
    intro v w hv hw
    obtain ⟨ys, rfl, hys⟩ := same_record_iff.1 hv
    obtain ⟨zs, rfl, hzs⟩ := same_record_iff.1 hw
    exact same_record_iff.2 ⟨zs, rfl, forall₂_euclid (fun x hx y z => ih x hx) hys hzs⟩

end SchemaCompiler.Value
