import Mathlib
import SchemaCompiler.Proofs.Value.Equivalence
import SchemaCompiler.RowSecurity.Changes

/-!
# First occurrences

Of several policies of one name only the first counts when policies are compared.  The rest of a
list without what repeats its first item is shorter, but no part of the rest, so the proofs here go
by the length of the list.

* `filter_eraseDupsBy`, `eraseDupsBy_append`, `eraseDupsBy_map` — the first occurrences in lists
  that are filtered, joined and mapped;
* `firsts_eq_eraseDupsBy` — **the policies that count are the first occurrences of their names.**
-/

namespace SchemaCompiler.RowSecurity

open Value

section FirstOccurrences

variable {α β : Type} {r : α → α → Bool}

/-- A property that items share with what repeats them may be asked before or after. -/
theorem filter_eraseDupsBy {p : α → Bool} (l : List α)
    (h : ∀ x ∈ l, ∀ y ∈ l, r y x = true → p y = p x) :
    (l.eraseDupsBy r).filter p = (l.filter p).eraseDupsBy r := by
  induction hn : l.length using Nat.strong_induction_on generalizing l with
  | _ n ih =>
    cases l with
    | nil => rfl
    | cons a l =>
      subst hn
      have hrest : ((l.filter fun b => decide (r b a = false)).eraseDupsBy r).filter p =
          ((l.filter fun b => decide (r b a = false)).filter p).eraseDupsBy r := by
        refine ih _ (Nat.lt_succ_of_le (List.length_filter_le _ _)) _ ?_ rfl
        intro x hx y hy
        exact h x (List.mem_cons_of_mem a (List.mem_of_mem_filter hx)) y
          (List.mem_cons_of_mem a (List.mem_of_mem_filter hy))
      rw [List.eraseDupsBy_cons, List.filter_cons, List.filter_cons, hrest]
      cases ha : p a with
      | true =>
        rw [if_pos rfl, if_pos rfl, List.eraseDupsBy_cons, List.filter_filter, List.filter_filter]
        simp only [Bool.and_comm]
      | false =>
        rw [if_neg Bool.false_ne_true, if_neg Bool.false_ne_true, List.filter_filter]
        refine congrArg (List.eraseDupsBy r) (List.filter_congr fun x hx => ?_)
        cases hrepeat : r x a with
        | true =>
          rw [h a List.mem_cons_self x (List.mem_cons_of_mem a hx) hrepeat, ha]
          rfl
        | false => simp

/-- What does not repeat anything before it is kept apart from it. -/
theorem eraseDupsBy_append {xs ys : List α} (h : ∀ x ∈ xs, ∀ y ∈ ys, r y x = false) :
    (xs ++ ys).eraseDupsBy r = xs.eraseDupsBy r ++ ys.eraseDupsBy r := by
  induction hn : xs.length using Nat.strong_induction_on generalizing xs with
  | _ n ih =>
    cases xs with
    | nil => rfl
    | cons a xs =>
      subst hn
      have hys : (ys.filter fun b => decide (r b a = false)) = ys := by
        refine List.filter_eq_self.2 fun y hy => ?_
        rw [h a List.mem_cons_self y hy]
        rfl
      rw [List.cons_append, List.eraseDupsBy_cons, List.eraseDupsBy_cons, List.filter_append, hys,
        List.cons_append]
      refine congrArg (a :: ·) (ih _ (Nat.lt_succ_of_le (List.length_filter_le _ _)) ?_ rfl)
      intro x hx
      exact h x (List.mem_cons_of_mem a (List.mem_of_mem_filter hx))

/-- What is made of items repeats when the items do. -/
theorem eraseDupsBy_map {f : β → α} {q : β → β → Bool} (hq : ∀ x y, r (f y) (f x) = q y x)
    (l : List β) : (l.map f).eraseDupsBy r = (l.eraseDupsBy q).map f := by
  induction hn : l.length using Nat.strong_induction_on generalizing l with
  | _ n ih =>
    cases l with
    | nil => rfl
    | cons b l =>
      subst hn
      rw [List.map_cons, List.eraseDupsBy_cons, List.eraseDupsBy_cons, List.map_cons,
        List.filter_map, ← ih _ (Nat.lt_succ_of_le (List.length_filter_le _ _)) _ rfl]
      simp only [Function.comp_def, hq]

end FirstOccurrences

/-- Whether a policy has the name of an earlier one. -/
def repeatsName (later earlier : Value × Policy) : Bool := earlier.1.same later.1

/-- **Of several policies of one name the first occurrence is kept.** -/
theorem firsts_eq_eraseDupsBy {policies : Named} (h : ∀ p ∈ policies, p.1.isHashable = true) :
    policies.firsts = policies.eraseDupsBy repeatsName := by
  induction policies with
  | nil => rfl
  | cons p policies ih =>
    rw [List.forall_mem_cons] at h
    obtain ⟨hp, hpolicies⟩ := h
    have hshared : ∀ x ∈ policies, ∀ y ∈ policies, repeatsName y x = true →
        (!p.1.same y.1) = !p.1.same x.1 := by
      intro x hx y _ hxy
      have hback : y.1.same x.1 = true := same_symm (hpolicies x hx) hxy
      refine congrArg Bool.not (Bool.eq_iff_iff.2 ⟨?_, ?_⟩)
      · intro hsame
        exact same_trans hp hsame hback
      · intro hsame
        exact same_trans hp hsame hxy
    show p :: (Named.firsts policies).filter (fun q => !p.1.same q.1) = _
    rw [ih hpolicies, filter_eraseDupsBy policies hshared, List.eraseDupsBy_cons]
    simp only [repeatsName, ← Bool.not_eq_true, Bool.decide_eq_true, decide_not]

end SchemaCompiler.RowSecurity
