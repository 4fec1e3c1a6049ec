import Mathlib.Data.List.Forall2
import SchemaCompiler.Fault

/-!
# Outcomes

How a computation that ended well is taken apart: a sequence has an intermediate result
(`bind_eq_ok`), and a list of computations has a list of results, item by item (`mapM_eq_ok`).
Where only the end matters and not the result, `Succeeds` is taken apart in the same way
(`succeeds_bind`, `succeeds_mapM`).
-/

namespace SchemaCompiler

variable {α β ε : Type}

theorem pure_eq_ok (a : α) : (pure a : Except Fault α) = .ok a := rfl

theorem bind_eq_ok {x : Except ε α} {f : α → Except ε β} {b : β} :
    x >>= f = .ok b ↔ ∃ a, x = .ok a ∧ f a = .ok b := by
  cases x with
  | error fault => simp [Bind.bind, Except.bind]
  | ok a => simp [Bind.bind, Except.bind]

theorem ok_bind (a : α) (f : α → Except Fault β) : (Except.ok a >>= f) = f a := rfl

theorem map_eq_ok {x : Except ε α} {f : α → β} {b : β} :
    x.map f = .ok b ↔ ∃ a, x = .ok a ∧ f a = b := by
  cases x <;> simp [Except.map]

theorem toOption_eq_some {x : Except ε α} {a : α} :
    x.toOption = some a ↔ x = .ok a := by
  cases x <;> simp [Except.toOption]

/-- The results of a list of computations, item by item. -/
theorem mapM_eq_ok {f : α → Except Fault β} {as : List α} {bs : List β} :
    as.mapM f = .ok bs ↔ List.Forall₂ (fun a b => f a = .ok b) as bs := by
  induction as generalizing bs with
  | nil =>
    rw [List.mapM_nil, List.forall₂_nil_left_iff, pure_eq_ok, Except.ok.injEq]
    exact eq_comm
  | cons a as ih =>
    rw [List.mapM_cons, bind_eq_ok, List.forall₂_cons_left_iff]
    constructor
    · rintro ⟨b, hb, hrest⟩
      obtain ⟨rest, hrest, hpure⟩ := bind_eq_ok.1 hrest
      rw [pure_eq_ok, Except.ok.injEq] at hpure
      exact ⟨b, rest, hb, ih.1 hrest, hpure.symm⟩
    · rintro ⟨b, rest, hb, hrest, rfl⟩
      exact ⟨b, hb, bind_eq_ok.2 ⟨rest, ih.2 hrest, rfl⟩⟩

/-- Computations that all end well, with known results. -/
theorem mapM_eq_ok_map {f : α → Except Fault β} {g : α → β} {as : List α}
    (h : ∀ a ∈ as, f a = .ok (g a)) : as.mapM f = .ok (as.map g) := by
  rw [mapM_eq_ok, List.forall₂_map_right_iff, List.forall₂_same]
  exact h

/-- What is made of each result is made of the list of results. -/
theorem mapM_map {γ : Type} (f : α → Except Fault β) (g : β → γ) (as : List α) :
    (as.mapM fun a => (f a).map g) = (as.mapM f).map (List.map g) := by
  induction as with
  | nil => rfl
  | cons a as ih =>
    rw [List.mapM_cons, List.mapM_cons, ih]
    cases f a with
    | error fault => rfl
    | ok b =>
      cases as.mapM f with
      | error fault => rfl
      | ok bs => rfl

/-- Computations that can only fail in one way fail so together if one of them does. -/
theorem mapM_eq_error {f : α → Except Fault β} {fault : Fault} {as : List α}
    (hall : ∀ a ∈ as, (∃ b, f a = .ok b) ∨ f a = .error fault)
    (hfails : ∃ a ∈ as, f a = .error fault) : as.mapM f = .error fault := by
  induction as with
  | nil =>
    obtain ⟨a, ha, -⟩ := hfails
    exact absurd ha List.not_mem_nil
  | cons a as ih =>
    rw [List.forall_mem_cons] at hall
    obtain ⟨hfirst, hall⟩ := hall
    rw [List.mapM_cons]
    rcases hfirst with ⟨b, hb⟩ | herror
    · have hrest : ∃ a ∈ as, f a = .error fault := by
        obtain ⟨a', ha', herror⟩ := hfails
        rcases List.mem_cons.1 ha' with rfl | ha'
        · rw [hb] at herror
          cases herror
        · exact ⟨a', ha', herror⟩
      rw [hb, ih hall hrest]
      rfl
    · rw [herror]
      rfl

/-- Of two lists that go together item by item, each item of the second goes with one of the
first. -/
theorem exists_of_mem_right {R : α → β → Prop} {as : List α} {bs : List β}
    (h : List.Forall₂ R as bs) {b : β} (hb : b ∈ bs) : ∃ a ∈ as, R a b := by
  induction h with
  | nil => exact absurd hb List.not_mem_nil
  | @cons a b' as bs ha _ ih =>
    rcases List.mem_cons.1 hb with rfl | hb
    · exact ⟨a, List.mem_cons_self, ha⟩
    · obtain ⟨a', hmem, ha'⟩ := ih hb
      exact ⟨a', List.mem_cons_of_mem _ hmem, ha'⟩

/-- Each item has its result among the results. -/
theorem exists_result_of_mem {f : α → Except Fault β} {as : List α} {bs : List β}
    (h : as.mapM f = .ok bs) {a : α} (ha : a ∈ as) : ∃ b ∈ bs, f a = .ok b :=
  exists_of_mem_right (mapM_eq_ok.1 h).flip ha

/-- Each result is that of some item. -/
theorem exists_item_of_mem {f : α → Except Fault β} {as : List α} {bs : List β}
    (h : as.mapM f = .ok bs) {b : β} (hb : b ∈ bs) : ∃ a ∈ as, f a = .ok b :=
  exists_of_mem_right (mapM_eq_ok.1 h) hb

/-- Properties of the results are properties of the items they came from. -/
theorem forall_results_iff {f : α → Except Fault β} {as : List α} {bs : List β}
    (h : as.mapM f = .ok bs) {P : β → Prop} {Q : α → Prop}
    (hiff : ∀ a ∈ as, ∀ b, f a = .ok b → (P b ↔ Q a)) : (∀ b ∈ bs, P b) ↔ ∀ a ∈ as, Q a := by
  constructor
  · intro hall a ha
    obtain ⟨b, hb, hresult⟩ := exists_result_of_mem h ha
    exact (hiff a ha b hresult).1 (hall b hb)
  · intro hall b hb
    obtain ⟨a, ha, hresult⟩ := exists_item_of_mem h hb
    exact (hiff a ha b hresult).2 (hall a ha)

/-! ### Ending well -/

/-- A computation that ends well. -/
def Succeeds (x : Except Fault α) : Prop := ∃ a, x = .ok a

theorem succeeds_ok (a : α) : Succeeds (.ok a) := ⟨a, rfl⟩

theorem not_succeeds_error (fault : Fault) : ¬Succeeds (.error fault : Except Fault α) := nofun

/-- A sequence ends well if its first part does, and the rest does whatever came of it. -/
theorem succeeds_bind {x : Except Fault α} {f : α → Except Fault β} {P : Prop}
    (h : ∀ a, x = .ok a → (Succeeds (f a) ↔ P)) : Succeeds (x >>= f) ↔ Succeeds x ∧ P := by
  constructor
  · rintro ⟨b, hb⟩
    obtain ⟨a, ha, hb⟩ := bind_eq_ok.1 hb
    exact ⟨⟨a, ha⟩, (h a ha).1 ⟨b, hb⟩⟩
  · rintro ⟨⟨a, ha⟩, hP⟩
    obtain ⟨b, hb⟩ := (h a ha).2 hP
    exact ⟨b, bind_eq_ok.2 ⟨a, ha, hb⟩⟩

/-- What is made of the result has no part in it. -/
theorem succeeds_bind_pure {x : Except Fault α} {f : α → β} :
    Succeeds (x >>= fun a => pure (f a)) ↔ Succeeds x :=
  (succeeds_bind fun a _ => iff_true_intro (succeeds_ok (f a))).trans (and_iff_left trivial)

theorem succeeds_map {x : Except Fault α} {f : α → β} : Succeeds (x.map f) ↔ Succeeds x := by
  simp only [Succeeds, map_eq_ok]
  exact ⟨fun ⟨_, a, ha, _⟩ => ⟨a, ha⟩, fun ⟨a, ha⟩ => ⟨f a, a, ha, rfl⟩⟩

/-- A list of computations ends well if all of them do. -/
theorem succeeds_mapM {f : α → Except Fault β} {as : List α} :
    Succeeds (as.mapM f) ↔ ∀ a ∈ as, Succeeds (f a) := by
  constructor
  · rintro ⟨bs, hbs⟩ a ha
    obtain ⟨b, -, hb⟩ := exists_result_of_mem hbs ha
    exact ⟨b, hb⟩
  · intro h
    induction as with
    | nil => exact ⟨[], rfl⟩
    | cons a as ih =>
      obtain ⟨b, hb⟩ := h a List.mem_cons_self
      obtain ⟨bs, hbs⟩ := ih fun a' ha' => h a' (List.mem_cons_of_mem a ha')
      exact ⟨b :: bs, mapM_eq_ok.2 (.cons hb (mapM_eq_ok.1 hbs))⟩

/-- What is known of each result is known of all of them. -/
theorem map_eq_map_of_mapM {γ : Type} {f : α → Except Fault β} {as : List α} {bs : List β}
    (h : as.mapM f = .ok bs) {g : β → γ} {k : α → γ} (hg : ∀ a b, f a = .ok b → g b = k a) :
    bs.map g = as.map k := by
  have hall := mapM_eq_ok.1 h
  clear h
  induction hall with
  | nil => rfl
  | cons hb _ ih => rw [List.map_cons, List.map_cons, hg _ _ hb, ih]

end SchemaCompiler
