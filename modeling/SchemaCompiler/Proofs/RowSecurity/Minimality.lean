import Mathlib
import SchemaCompiler.Proofs.RowSecurity.RuleMap

/-!
# Reconciliation is minimal

Between the drop of a policy and its creation anew its table is without it, so no statement should
be one too many.  What a statement does is followed name by name here: a statement is about one
name at most, and under each name there is a least number of statements that leads from the old
rule to the new one.

* `distance` — how many statements a name needs, and `distance_le_countP` — **no run gets along
  with fewer**;
* `sum_countP_le_length` — the statements about different names add up to no more than there are;
* `dropped_eq`, `recreated_eq`, `created_eq` — what the changes of a table are, name by name;
* `length_statements`, `sum_distance_allNames` — how many statements they are: those that all names
  need together;
* `leads_statements` — the changes of a table lead from its old rules to its new ones;
* `policyChanges_minimal` — **no other statements that lead there are fewer.**
-/

namespace SchemaCompiler.RowSecurity

open RuleMap Value

/-! ### Counting -/

section Counting

variable {α : Type}

/-- Items are counted by adding up. -/
theorem sum_map_toNat (p : α → Bool) (l : List α) :
    (l.map fun x => (p x).toNat).sum = l.countP p := by
  induction l with
  | nil => rfl
  | cons a l ih =>
    rw [List.map_cons, List.sum_cons, List.countP_cons, ih, Nat.add_comm]
    cases p a <;> rfl

theorem countP_cons_toNat (p : α → Bool) (a : α) (l : List α) :
    (a :: l).countP p = l.countP p + (p a).toNat := by
  rw [List.countP_cons]
  cases p a <;> rfl

end Counting

/-! ### Lower bounds -/

/-- How many statements about a name lead from one rule to another. -/
def distance : Option Rule → Option Rule → Nat
  | none, none => 0
  | none, some _ => 1
  | some _, none => 1
  | some rule, some wanted => if rule.same wanted then 0 else 2

theorem distance_of_rel {rule wanted : Option Rule} (h : Option.Rel Alike rule wanted) :
    distance rule wanted = 0 := by
  cases h with
  | none => rfl
  | some halike => exact if_pos halike

/-- A name that is free before or after one statement comes nearer by one at most. -/
theorem distance_le_succ {rule next : Option Rule} (wanted : Option Rule)
    (h : rule = none ∨ next = none) :
    distance rule wanted ≤ distance next wanted + 1 := by
  rcases h with rfl | rfl
  · cases wanted with
    | none => exact Nat.zero_le _
    | some wanted => exact Nat.le_add_left 1 _
  · cases rule with
    | none => exact Nat.le_succ _
    | some rule =>
      cases wanted with
      | none => exact Nat.le_refl _
      | some wanted =>
        show (if rule.same wanted then 0 else 2) ≤ 2
        split <;> omega

/-- **No run gets along with fewer statements about a name than it needs.** -/
theorem distance_le_countP {table name : Value} {m result : RuleMap} {wanted : Option Rule}
    {statements : List PolicyStatement} (hname : name.isHashable = true)
    (hrun : m.run table statements = some result)
    (hresult : Option.Rel Alike (result.rule? name) wanted) :
    distance (m.rule? name) wanted ≤ statements.countP (PolicyStatement.isAbout table name) := by
  induction statements generalizing m with
  | nil =>
    have hm : m = result := Option.some.inj hrun
    rw [hm, distance_of_rel hresult]
    exact Nat.zero_le _
  | cons s statements ih =>
    rw [run_cons, Option.bind_eq_some_iff] at hrun
    obtain ⟨next, hexec, hrest⟩ := hrun
    have hnext := ih hrest
    rw [countP_cons_toNat]
    rcases rule?_exec hname hexec with ⟨hother, hkept⟩ | ⟨habout, hfree⟩
    · rw [hother, ← hkept]
      exact hnext
    · rw [habout]
      have hstep := distance_le_succ wanted hfree
      show _ ≤ _ + 1
      omega

/-- A statement is about one of different names at most. -/
theorem countP_isAbout_le_one (table : Value) {names : List Value}
    (hkeys : ∀ n ∈ names, n.isHashable = true) (hdifferent : Different names)
    (s : PolicyStatement) : (names.countP fun n => s.isAbout table n) ≤ 1 := by
  have hshared : ∀ {v w : Value}, s.isAbout table v = true → s.isAbout table w = true →
      ∃ name, v.same name = true ∧ w.same name = true := by
    intro v w hv hw
    cases s with
    | create other name p =>
      exact ⟨name, (Bool.and_eq_true_iff.1 hv).2, (Bool.and_eq_true_iff.1 hw).2⟩
    | drop other name =>
      exact ⟨name, (Bool.and_eq_true_iff.1 hv).2, (Bool.and_eq_true_iff.1 hw).2⟩
  induction names with
  | nil => exact Nat.zero_le _
  | cons v names ih =>
    rw [List.forall_mem_cons] at hkeys
    obtain ⟨hv, hkeys⟩ := hkeys
    obtain ⟨hfirst, hdifferent⟩ := List.pairwise_cons.1 hdifferent
    rw [List.countP_cons]
    cases habout : s.isAbout table v with
    | false =>
      rw [if_neg Bool.false_ne_true]
      exact ih hkeys hdifferent
    | true =>
      have hnone : (names.countP fun n => s.isAbout table n) = 0 := by
        refine List.countP_eq_zero.2 ?_
        intro w hw hw'
        obtain ⟨name, hvname, hwname⟩ := hshared habout hw'
        have hsame : w.same v = true := same_trans (hkeys w hw) hwname (same_symm hv hvname)
        rw [hfirst w hw] at hsame
        exact Bool.false_ne_true hsame
      rw [hnone, if_pos rfl]

/-- **The statements about different names** add up to no more than there are. -/
theorem sum_countP_le_length (table : Value) {names : List Value}
    (hkeys : ∀ n ∈ names, n.isHashable = true) (hdifferent : Different names)
    (statements : List PolicyStatement) :
    (names.map fun n => statements.countP (PolicyStatement.isAbout table n)).sum ≤
      statements.length := by
  induction statements with
  | nil => simp
  | cons s statements ih =>
    have hsplit : (names.map fun n =>
        (s :: statements).countP (PolicyStatement.isAbout table n)).sum =
        (names.map fun n => statements.countP (PolicyStatement.isAbout table n)).sum +
          names.countP fun n => s.isAbout table n := by
      simp only [countP_cons_toNat]
      rw [List.sum_map_add, sum_map_toNat]
    have hone := countP_isAbout_le_one table hkeys hdifferent s
    rw [hsplit, List.length_cons]
    omega

/-- **No run gets along with fewer statements than all names need.** -/
theorem sum_distance_le_length {table : Value} {m result wanted : RuleMap} {names : List Value}
    {statements : List PolicyStatement} (hkeys : ∀ n ∈ names, n.isHashable = true)
    (hdifferent : Different names) (hrun : m.run table statements = some result)
    (hresult : result.Agree wanted) :
    (names.map fun n => distance (m.rule? n) (wanted.rule? n)).sum ≤ statements.length := by
  refine Nat.le_trans (List.sum_le_sum ?_)
    (sum_countP_le_length table hkeys hdifferent statements)
  intro n hn
  exact distance_le_countP (hkeys n hn) hrun (hresult n (hkeys n hn))

/-! ### The changes of a table -/

/-- Whether other policies have none of this name. -/
def isMissing (others : Named) (p : Value × Policy) : Bool :=
  ((ofNamed others).rule? p.1).isNone

/-- Whether other policies have one of this name with another rule. -/
def isChanged (others : Named) (p : Value × Policy) : Bool :=
  ((ofNamed others).rule? p.1).any fun rule => !rule.same (ruleOf p.2)

section Changes

variable {before after : Named} {table name : Value}

/-- The names that are dropped for good are those that are missing afterwards, each once. -/
theorem dropped_eq_firsts (hbefore : ∀ p ∈ before, p.1.isHashable = true)
    (hafter : ∀ q ∈ after, q.1.isHashable = true) :
    (reconcile before after).dropped =
      (before.firsts.filter (isMissing after)).map Prod.fst := by
  refine congrArg (List.map Prod.fst) (List.filter_congr ?_)
  intro p hp
  rw [isMissing, ← find?_eq_rule? hafter ((isMap_firsts hbefore).keys p hp), Option.isNone_map]

theorem dropped_eq (hbefore : IsMap before) (hafter : IsMap after) :
    (reconcile before after).dropped = (before.filter (isMissing after)).map Prod.fst := by
  rw [dropped_eq_firsts hbefore.keys hafter.keys, hbefore.firsts_eq]

/-- The policies that are created anew are those that have changed. -/
theorem recreated_eq (hbefore : ∀ p ∈ before, p.1.isHashable = true)
    (hafter : ∀ q ∈ after, q.1.isHashable = true) :
    (reconcile before after).recreated = (after.filter (isChanged before)).map Prod.fst := by
  refine congrArg (List.map Prod.fst) (List.filter_congr ?_)
  intro q hq
  rw [isChanged, ← find?_eq_rule? hbefore (hafter q hq), find?_firsts hbefore]
  cases Named.find? q.1 before with
  | none => rfl
  | some p => exact differ_eq p q.2

/-- The policies that are created are those that are new or have changed. -/
theorem created_eq (hbefore : ∀ p ∈ before, p.1.isHashable = true)
    (hafter : ∀ q ∈ after, q.1.isHashable = true) :
    (reconcile before after).created =
      after.filter fun q => isMissing before q || isChanged before q := by
  refine List.filter_congr ?_
  intro q hq
  rw [isMissing, isChanged, ← find?_eq_rule? hbefore (hafter q hq), find?_firsts hbefore]
  cases Named.find? q.1 before with
  | none => rfl
  | some p => exact differ_eq p q.2

/-- Nothing has to be done for a policy that was there before under the same rule. -/
theorem needsNothing_iff {q : Value × Policy} : (isMissing before q || isChanged before q) = false ↔
    ∃ rule, (ofNamed before).rule? q.1 = some rule ∧ Alike rule (ruleOf q.2) := by
  rw [isMissing, isChanged]
  cases (ofNamed before).rule? q.1 with
  | none => simp
  | some rule => simp [Alike]

/-- **How many statements there are**: one for each name that only one of the lists has, and two
for each name that both have with different rules. -/
theorem length_statements (hbefore : IsMap before) (hafter : IsMap after) :
    ((reconcile before after).statements table).length =
      before.countP (isMissing after) + after.countP (isMissing before) +
        2 * after.countP (isChanged before) := by
  have hcreated : (after.countP fun q => isMissing before q || isChanged before q) =
      after.countP (isMissing before) + after.countP (isChanged before) := by
    rw [← sum_map_toNat, ← sum_map_toNat, ← sum_map_toNat, ← List.sum_map_add]
    refine congrArg List.sum (List.map_congr_left ?_)
    intro q _
    rw [isMissing, isChanged]
    cases (ofNamed before).rule? q.1 with
    | none => rfl
    | some rule => exact (Nat.zero_add _).symm
  rw [Changes.statements, List.length_append, List.length_append, List.length_map, List.length_map,
    List.length_map, dropped_eq hbefore hafter, recreated_eq hbefore.keys hafter.keys,
    created_eq hbefore.keys hafter.keys, List.length_map, List.length_map,
    ← List.countP_eq_length_filter, ← List.countP_eq_length_filter,
    ← List.countP_eq_length_filter, hcreated]
  omega

/-- The names of both lists, each once. -/
def allNames (before after : Named) : List Value :=
  (before.filter (isMissing after)).map Prod.fst ++ after.map Prod.fst

theorem isHashable_allNames (hbefore : IsMap before) (hafter : IsMap after) :
    ∀ n ∈ allNames before after, n.isHashable = true := by
  intro n hn
  rcases List.mem_append.1 hn with hn | hn
  · obtain ⟨p, hp, rfl⟩ := List.mem_map.1 hn
    exact hbefore.keys p (List.mem_of_mem_filter hp)
  · obtain ⟨q, hq, rfl⟩ := List.mem_map.1 hn
    exact hafter.keys q hq

theorem different_allNames (hbefore : IsMap before) (hafter : IsMap after) :
    Different (allNames before after) := by
  refine List.pairwise_append.2
    ⟨hbefore.different.sublist (List.filter_sublist.map Prod.fst), hafter.different, ?_⟩
  intro n hn n' hn'
  obtain ⟨p, hp, rfl⟩ := List.mem_map.1 hn
  obtain ⟨q, hq, rfl⟩ := List.mem_map.1 hn'
  obtain ⟨hp, hmissing⟩ := List.mem_filter.1 hp
  rw [same_comm (hafter.keys q hq) (hbefore.keys p hp)]
  exact rule?_ofNamed_eq_none.1 (Option.isNone_iff_eq_none.1 hmissing) q hq

/-- **What all names need together** is as many statements as there are. -/
theorem sum_distance_allNames (hbefore : IsMap before) (hafter : IsMap after) :
    ((allNames before after).map fun n =>
      distance ((ofNamed before).rule? n) ((ofNamed after).rule? n)).sum =
      ((reconcile before after).statements table).length := by
  have hmissing : ((before.filter (isMissing after)).map fun p =>
      distance ((ofNamed before).rule? p.1) ((ofNamed after).rule? p.1)).sum =
      before.countP (isMissing after) := by
    rw [List.map_congr_left (g := fun _ => 1) ?_, List.map_const', List.sum_replicate,
      ← List.countP_eq_length_filter, smul_eq_mul, Nat.mul_one]
    intro p hp
    obtain ⟨hp, hmissing⟩ := List.mem_filter.1 hp
    rw [Option.isNone_iff_eq_none.1 hmissing,
      rule?_ofNamed_of_mem hbefore hp (hbefore.keys p hp) (same_refl p.1)]
    rfl
  have hafter' : (after.map fun q =>
      distance ((ofNamed before).rule? q.1) ((ofNamed after).rule? q.1)).sum =
      after.countP (isMissing before) + 2 * after.countP (isChanged before) := by
    rw [← sum_map_toNat, ← sum_map_toNat, ← List.sum_map_mul_left, ← List.sum_map_add]
    refine congrArg List.sum (List.map_congr_left ?_)
    intro q hq
    rw [rule?_ofNamed_of_mem hafter hq (hafter.keys q hq) (same_refl q.1), isMissing, isChanged]
    cases (ofNamed before).rule? q.1 with
    | none => rfl
    | some rule =>
      show (if rule.same (ruleOf q.2) then 0 else 2) = 0 + 2 * (!rule.same (ruleOf q.2)).toNat
      cases rule.same (ruleOf q.2) <;> rfl
  rw [length_statements hbefore hafter, allNames, List.map_append, List.sum_append, List.map_map,
    List.map_map]
  simp only [Function.comp_def]
  rw [hmissing, hafter', Nat.add_assoc]

end Changes

/-! ### The changes lead to the new rules -/

section Runs

variable {before after : Named} {table name : Value}

/-- **A policy that has not changed is left alone**: nothing is dropped or created under its
name. -/
theorem untouched_of_kept (hbefore : IsMap before) (hafter : IsMap after) {q : Value × Policy}
    (hq : q ∈ after) (hname : name.isHashable = true) (hsame : name.same q.1 = true)
    (hkept : q ∉ (reconcile before after).created) :
    (∀ d ∈ (reconcile before after).dropped ++ (reconcile before after).recreated,
      name.same d = false) ∧
    ∀ q' ∈ (reconcile before after).created, name.same q'.1 = false := by
  rw [created_eq hbefore.keys hafter.keys] at hkept ⊢
  have hchanged : isChanged before q = false := by
    cases hchanged : isChanged before q with
    | false => rfl
    | true =>
      refine (hkept (List.mem_filter.2 ⟨hq, ?_⟩)).elim
      rw [hchanged, Bool.or_true]
  rw [dropped_eq hbefore hafter, recreated_eq hbefore.keys hafter.keys]
  refine ⟨?_, ?_⟩
  · intro d hd
    rw [← Bool.not_eq_true]
    intro hdname
    rcases List.mem_append.1 hd with hd | hd
    · obtain ⟨p, hp, rfl⟩ := List.mem_map.1 hd
      obtain ⟨-, hmissing⟩ := List.mem_filter.1 hp
      -- The name of `p` is that of `q`, which is not missing.
      rw [isMissing, ← (ofNamed after).congr hname hdname,
        rule?_ofNamed_of_mem hafter hq hname hsame] at hmissing
      cases hmissing
    · obtain ⟨q', hq', rfl⟩ := List.mem_map.1 hd
      obtain ⟨hq', hchanged'⟩ := List.mem_filter.1 hq'
      rw [hafter.eq_of_same hq' hq hname hdname hsame, hchanged] at hchanged'
      cases hchanged'
  · intro q' hq'
    rw [← Bool.not_eq_true]
    intro hq'name
    have hq'q := hafter.eq_of_same (List.mem_of_mem_filter hq') hq hname hq'name hsame
    exact hkept (hq'q ▸ hq')

/-- A policy that is not created was there before under the same rule. -/
theorem rule?_of_kept (hbefore : IsMap before) (hafter : IsMap after) {q : Value × Policy}
    (hq : q ∈ after) (hkept : q ∉ (reconcile before after).created) :
    ∃ rule, (ofNamed before).rule? q.1 = some rule ∧ Alike rule (ruleOf q.2) := by
  rw [created_eq hbefore.keys hafter.keys, List.mem_filter] at hkept
  refine needsNothing_iff.1 ?_
  rw [← Bool.not_eq_true]
  exact fun h => hkept ⟨hq, h⟩

/-- Whether a name is dropped, for good or to be created anew. -/
def isDropped (before after : Named) (name : Value) : Bool :=
  ((reconcile before after).dropped ++ (reconcile before after).recreated).any
    fun n => name.same n

/-- What is created has a free name once the drops are done: a policy that has changed was dropped
first, and a new one has a name of its own. -/
theorem free_of_isDropped (hbefore : IsMap before) (hafter : IsMap after) :
    ∀ q ∈ (reconcile before after).created,
      (if isDropped before after q.1 then none else (ofNamed before).rule? q.1) = none := by
  intro q hq
  rw [created_eq hbefore.keys hafter.keys] at hq
  obtain ⟨hq, hor⟩ := List.mem_filter.1 hq
  rcases Bool.or_eq_true_iff.1 hor with hmissing | hchanged
  · rw [Option.isNone_iff_eq_none.1 hmissing, ite_self]
  · have hrecreated : q.1 ∈ (reconcile before after).recreated := by
      rw [recreated_eq hbefore.keys hafter.keys]
      exact List.mem_map_of_mem (List.mem_filter.2 ⟨hq, hchanged⟩)
    refine if_pos (List.any_eq_true.2 ⟨q.1, List.mem_append_right _ hrecreated, ?_⟩)
    exact same_refl q.1

/-- What is there at the end under a name: what is created, or else what is not dropped. -/
def finalRule? (before after : Named) (name : Value) : Option Rule :=
  ((ofNamed (reconcile before after).created).rule? name).or
    (if isDropped before after name then none else (ofNamed before).rule? name)

/-- A name of the new list has its rule at the end. -/
theorem finalRule?_of_mem (hbefore : IsMap before) (hafter : IsMap after) {q : Value × Policy}
    (hq : q ∈ after) (hname : name.isHashable = true) (hsame : name.same q.1 = true) :
    ∃ rule, finalRule? before after name = some rule ∧ Alike rule (ruleOf q.2) := by
  by_cases hcreated : q ∈ (reconcile before after).created
  · have hmap : IsMap (reconcile before after).created := by
      rw [created_eq hbefore.keys hafter.keys]
      exact hafter.sublist List.filter_sublist
    refine ⟨ruleOf q.2, ?_, Rule.same_refl _⟩
    rw [finalRule?, rule?_ofNamed_of_mem hmap hcreated hname hsame, Option.some_or]
  · obtain ⟨hdropped, hothers⟩ := untouched_of_kept hbefore hafter hq hname hsame hcreated
    obtain ⟨rule, hrule, halike⟩ := rule?_of_kept hbefore hafter hq hcreated
    have hkept : isDropped before after name = false := by
      refine List.any_eq_false.2 ?_
      intro d hd
      rw [hdropped d hd]
      exact Bool.false_ne_true
    refine ⟨rule, ?_, halike⟩
    rw [finalRule?, rule?_ofNamed_eq_none.2 hothers, Option.none_or, hkept,
      if_neg Bool.false_ne_true, (ofNamed before).congr hname hsame, hrule]

/-- A name that the new list does not have is free at the end. -/
theorem finalRule?_of_missing (hbefore : IsMap before) (hafter : IsMap after)
    (hname : name.isHashable = true) (hmissing : ∀ q ∈ after, name.same q.1 = false) :
    finalRule? before after name = none := by
  have hcreated : (ofNamed (reconcile before after).created).rule? name = none := by
    refine rule?_ofNamed_eq_none.2 ?_
    intro q hq
    rw [created_eq hbefore.keys hafter.keys] at hq
    exact hmissing q (List.mem_of_mem_filter hq)
  rw [finalRule?, hcreated, Option.none_or]
  cases hold : (ofNamed before).rule? name with
  | none => exact ite_self none
  | some rule =>
    obtain ⟨p, hp, hsame, -⟩ := exists_mem_of_rule?_ofNamed hold
    have hdropped : p.1 ∈ (reconcile before after).dropped := by
      rw [dropped_eq hbefore hafter]
      refine List.mem_map_of_mem (List.mem_filter.2 ⟨hp, ?_⟩)
      rw [isMissing, ← (ofNamed after).congr hname hsame, rule?_ofNamed_eq_none.2 hmissing]
      rfl
    exact if_pos (List.any_eq_true.2 ⟨p.1, List.mem_append_left _ hdropped, hsame⟩)

/-- **The changes of a table lead from its old rules to its new ones.** -/
theorem leads_statements (hbefore : IsMap before) (hafter : IsMap after) :
    Leads table before after ((reconcile before after).statements table) := by
  have hmap : IsMap (reconcile before after).created := by
    rw [created_eq hbefore.keys hafter.keys]
    exact hafter.sublist List.filter_sublist
  obtain ⟨between, hdrops, hbetween⟩ := run_dropStatements table (ofNamed before)
    ((reconcile before after).dropped ++ (reconcile before after).recreated)
  have hfree : ∀ q ∈ (reconcile before after).created, between.rule? q.1 = none := by
    intro q hq
    rw [hbetween q.1]
    exact free_of_isDropped hbefore hafter q hq
  obtain ⟨result, hcreates, hresult⟩ := run_createStatements table hmap hfree
  refine ⟨result, ?_, ?_⟩
  · rw [Changes.statements, ← List.map_append, run_append, hdrops, Option.bind_some, hcreates]
  · intro name hname
    have hfinal : result.rule? name = finalRule? before after name := by
      rw [hresult name hname, hbetween name]
      rfl
    rw [hfinal]
    by_cases hnew : ∃ q ∈ after, name.same q.1 = true
    · obtain ⟨q, hq, hsame⟩ := hnew
      obtain ⟨rule, hrule, halike⟩ := finalRule?_of_mem hbefore hafter hq hname hsame
      rw [hrule, rule?_ofNamed_of_mem hafter hq hname hsame]
      exact .some halike
    · have hmissing : ∀ q ∈ after, name.same q.1 = false := by
        intro q hq
        rw [← Bool.not_eq_true]
        exact fun hsame => hnew ⟨q, hq, hsame⟩
      rw [finalRule?_of_missing hbefore hafter hname hmissing, rule?_ofNamed_eq_none.2 hmissing]
      exact .none

/-- Nothing is done to a name that has the same rule in both lists. -/
theorem isAbout_of_same (hbefore : IsMap before) (hafter : IsMap after) {rule wanted : Rule}
    (hname : name.isHashable = true) (hrule : (ofNamed before).rule? name = some rule)
    (hwanted : (ofNamed after).rule? name = some wanted) (halike : rule.same wanted = true) :
    ∀ s ∈ (reconcile before after).statements table, s.isAbout table name = false := by
  obtain ⟨q, hq, hsame, rfl⟩ := exists_mem_of_rule?_ofNamed hwanted
  have hkept : q ∉ (reconcile before after).created := by
    rw [created_eq hbefore.keys hafter.keys, List.mem_filter, isMissing, isChanged,
      ← (ofNamed before).congr hname hsame, hrule]
    intro h
    have hor : (false || !rule.same (ruleOf q.2)) = true := h.2
    rw [halike] at hor
    cases hor
  obtain ⟨hdropped, hcreated⟩ := untouched_of_kept hbefore hafter hq hname hsame hkept
  intro s hs
  rw [Changes.statements, ← List.map_append] at hs
  rcases List.mem_append.1 hs with hs | hs
  · obtain ⟨d, hd, rfl⟩ := List.mem_map.1 hs
    rw [PolicyStatement.isAbout, hdropped d hd, Bool.and_false]
  · obtain ⟨q', hq', rfl⟩ := List.mem_map.1 hs
    rw [PolicyStatement.isAbout, hcreated q' hq', Bool.and_false]

end Runs

/-- **Reconciliation is minimal.**  Take two lists of policies of a table that have names which can
be keys, with no name repeated in either list.  The changes lead from the rules of the first to
those of the second, in SQL each statement says what it does, and no other statements that lead
there are fewer.  There is one statement for each name that only one of the lists has, and two for
each name that both have with different rules; there is none about a name that has the same rule in
both. -/
theorem policyChanges_minimal {table : Value} {old new : List Policy} {before after : Named}
    (hold : withNames table old = .ok before) (hnew : withNames table new = .ok after)
    (hbefore : Different (before.map Prod.fst)) (hafter : Different (after.map Prod.fst)) :
    ∃ statements, Yields table old new statements ∧ Leads table before after statements ∧
      (∀ others, Leads table before after others → statements.length ≤ others.length) ∧
      statements.length = before.countP (isMissing after) + after.countP (isMissing before) +
        2 * after.countP (isChanged before) ∧
      ∀ name rule wanted, name.isHashable = true → (ofNamed before).rule? name = some rule →
        (ofNamed after).rule? name = some wanted → rule.same wanted = true →
        ∀ s ∈ statements, s.isAbout table name = false := by
  have hbeforeMap := isMap_of_withNames hold hbefore
  have hafterMap := isMap_of_withNames hnew hafter
  refine ⟨(reconcile before after).statements table, ?_, leads_statements hbeforeMap hafterMap, ?_,
    length_statements hbeforeMap hafterMap, ?_⟩
  · refine yields_of_policyChanges ?_
    rw [outcome_policyChanges, hold, hnew]
    rfl
  · intro others hothers
    obtain ⟨result, hrun, hresult⟩ := hothers
    rw [← sum_distance_allNames hbeforeMap hafterMap]
    exact sum_distance_le_length (isHashable_allNames hbeforeMap hafterMap)
      (different_allNames hbeforeMap hafterMap) hrun hresult
  · intro name rule wanted hname hrule hwanted halike
    exact isAbout_of_same hbeforeMap hafterMap hname hrule hwanted halike

/-- Policies of the notes, before and after an editor takes over from their owners. -/
def ownedNotes : List Policy :=
  [policyOf .select "Anyone may read" "true" (.text "read"),
    policyOf .update "Owners edit" "owner = me()" (.text "edit"),
    policyOf .delete "Owners delete" "owner = me()" (.text "purge")]

/-- The policies afterwards. -/
def editedNotes : List Policy :=
  [policyOf .insert "Editors write" "is_editor()" (.text "write"),
    policyOf .update "Editors edit" "is_editor()" (.text "edit"),
    policyOf .select "Everyone may read" "true" (.text "read")]

/-- Four statements take the notes from one to the other, and no fewer do. -/
theorem policyChanges_notes : ∃ before after statements,
    withNames (.text "notes") ownedNotes = .ok before ∧
    withNames (.text "notes") editedNotes = .ok after ∧
    Yields (.text "notes") ownedNotes editedNotes statements ∧ statements.length = 4 ∧
    Leads (.text "notes") before after statements ∧
    ∀ others, Leads (.text "notes") before after others → 4 ≤ others.length := by
  have hbefore : withNames (.text "notes") ownedNotes =
      .ok (["read", "edit", "purge"].map Value.text |>.zip ownedNotes) := rfl
  have hafter : withNames (.text "notes") editedNotes =
      .ok (["write", "edit", "read"].map Value.text |>.zip editedNotes) := rfl
  obtain ⟨statements, hyields, hleads, hleast, hlength, -⟩ := policyChanges_minimal hbefore hafter
    (by simp [Different, ownedNotes, ← Bool.not_eq_true, same_text_left])
    (by simp [Different, editedNotes, ← Bool.not_eq_true, same_text_left])
  have hfour : statements.length = 4 := by
    rw [hlength]
    decide +kernel
  exact ⟨_, _, statements, hbefore, hafter, hyields, hfour, hleads, hfour ▸ hleast⟩

end SchemaCompiler.RowSecurity
