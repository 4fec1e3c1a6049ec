import Mathlib.Data.List.Forall2
import SchemaCompiler.Proofs.RowSecurity.Reconciliation
import SchemaCompiler.Proofs.Value.Equivalence

/-!
# Rules by name

The policies of one table as a map from their names to their rules, and what statements do to it.
Names need not be texts here: any values that can be keys will do, and those that are the same are
one name.

* `RuleMap`, `RuleMap.ofNamed` — the rules of a table by name;
* `RuleMap.exec`, `RuleMap.run` — one statement, and several in order;
* `Leads` — statements that lead from the rules of some policies to those of others;
* `rule?_exec` — **what one statement does to a name**: nothing, unless it is about this name;
* `IsMap` — policies under different names, and `rule?_ofNamed_of_mem`, the rule that each gives;
* `run_dropStatements`, `run_createStatements` — what a list of drops and a list of creations do.
-/

namespace SchemaCompiler.RowSecurity

open Value

/-! ### Rules by name -/

/-- The rule under each name of a table.  Names that are the same are one name. -/
structure RuleMap where
  rule? : Value → Option Rule
  congr : ∀ {name other : Value}, name.isHashable = true → name.same other = true →
    rule? name = rule? other

namespace RuleMap

/-- The rules of policies, each under its name. -/
def ofNamed (policies : Named) : RuleMap where
  rule? name := (List.find? (fun p => name.same p.1) policies).map fun p => ruleOf p.2
  congr hkey hsame := by simp only [same_congr hkey hsame]

/-- The map with something else under one name. -/
def put (m : RuleMap) (name : Value) (rule : Option Rule) : RuleMap where
  rule? other := if other.same name then rule else m.rule? other
  congr hkey hsame := by simp only [same_congr hkey hsame, m.congr hkey hsame]

theorem rule?_put (m : RuleMap) (name : Value) (rule : Option Rule) (other : Value) :
    (m.put name rule).rule? other = if other.same name then rule else m.rule? other := rfl

/-- A statement, for the policies of one table; none if it fails.  What it does to other tables is
left out, and so is their failing. -/
def exec (table : Value) (m : RuleMap) : PolicyStatement → Option RuleMap
  | .create other name p =>
    if table.same other then
      if (m.rule? name).isSome then none else some (m.put name (some (ruleOf p)))
    else some m
  | .drop other name => some (if table.same other then m.put name none else m)

/-- Statements in order; none if one of them fails. -/
def run (table : Value) (m : RuleMap) (statements : List PolicyStatement) : Option RuleMap :=
  statements.foldlM (exec table) m

theorem run_cons (table : Value) (m : RuleMap) (s : PolicyStatement)
    (rest : List PolicyStatement) :
    m.run table (s :: rest) = (m.exec table s).bind fun next => next.run table rest := rfl

theorem run_append (table : Value) (m : RuleMap) (first second : List PolicyStatement) :
    m.run table (first ++ second) =
      (m.run table first).bind fun next => next.run table second := List.foldlM_append

/-- Two maps have rules under the same names, and nothing distinguishes these rules. -/
def Agree (m other : RuleMap) : Prop :=
  ∀ name : Value, name.isHashable = true → Option.Rel Alike (m.rule? name) (other.rule? name)

end RuleMap

open RuleMap

/-- Statements that lead from the rules of some policies to those of others. -/
def Leads (table : Value) (before after : Named) (statements : List PolicyStatement) : Prop :=
  ∃ result, (ofNamed before).run table statements = some result ∧ result.Agree (ofNamed after)

/-- Whether a statement is about a policy of a table. -/
def PolicyStatement.isAbout (table name : Value) : PolicyStatement → Bool
  | .create other name' _ => table.same other && name.same name'
  | .drop other name' => table.same other && name.same name'

/-- A statement leaves a name as it is, or it is about this name and finds or leaves it free. -/
theorem rule?_exec {table name : Value} {m next : RuleMap} {s : PolicyStatement}
    (hname : name.isHashable = true) (h : m.exec table s = some next) :
    s.isAbout table name = false ∧ next.rule? name = m.rule? name ∨
      s.isAbout table name = true ∧ (m.rule? name = none ∨ next.rule? name = none) := by
  cases s with
  | create other name' p =>
    cases htable : table.same other with
    | false =>
      rw [exec, htable, if_neg Bool.false_ne_true, Option.some.injEq] at h
      exact Or.inl ⟨by rw [PolicyStatement.isAbout, htable, Bool.false_and], by rw [h]⟩
    | true =>
      rw [exec, htable, if_pos rfl] at h
      split at h
      next => cases h
      next hfree =>
        rw [Option.some.injEq] at h
        cases hsame : name.same name' with
        | false =>
          refine Or.inl ⟨by rw [PolicyStatement.isAbout, hsame, Bool.and_false], ?_⟩
          rw [← h, rule?_put, hsame, if_neg Bool.false_ne_true]
        | true =>
          refine Or.inr ⟨by rw [PolicyStatement.isAbout, htable, hsame, Bool.and_true], Or.inl ?_⟩
          rw [m.congr hname hsame]
          exact Option.not_isSome_iff_eq_none.1 hfree
  | drop other name' =>
    rw [exec, Option.some.injEq] at h
    cases htable : table.same other with
    | false =>
      rw [htable, if_neg Bool.false_ne_true] at h
      exact Or.inl ⟨by rw [PolicyStatement.isAbout, htable, Bool.false_and], by rw [h]⟩
    | true =>
      rw [htable, if_pos rfl] at h
      cases hsame : name.same name' with
      | false =>
        refine Or.inl ⟨by rw [PolicyStatement.isAbout, hsame, Bool.and_false], ?_⟩
        rw [← h, rule?_put, hsame, if_neg Bool.false_ne_true]
      | true =>
        refine Or.inr ⟨by rw [PolicyStatement.isAbout, htable, hsame, Bool.and_true], Or.inr ?_⟩
        rw [← h, rule?_put, hsame, if_pos rfl]

/-! ### Policies that make up a map -/

/-- Policies under different names that can be keys. -/
structure IsMap (policies : Named) : Prop where
  keys : ∀ p ∈ policies, p.1.isHashable = true
  different : Different (policies.map Prod.fst)

section Maps

variable {policies : Named} {name : Value}

theorem IsMap.tail {p : Value × Policy} (h : IsMap (p :: policies)) : IsMap policies :=
  ⟨fun q hq => h.keys q (List.mem_cons_of_mem p hq), (List.pairwise_cons.1 h.different).2⟩

/-- A name that is not the first one is not the same as the first one. -/
theorem IsMap.same_head {p : Value × Policy} (h : IsMap (p :: policies)) :
    ∀ q ∈ policies, q.1.same p.1 = false := by
  intro q hq
  exact (List.pairwise_cons.1 h.different).1 q.1 (List.mem_map_of_mem hq)

theorem IsMap.sublist {others : Named} (h : IsMap policies) (hsub : others.Sublist policies) :
    IsMap others :=
  ⟨fun p hp => h.keys p (hsub.subset hp), h.different.sublist (hsub.map Prod.fst)⟩

theorem rule?_ofNamed_cons (p : Value × Policy) (policies : Named) (name : Value) :
    (ofNamed (p :: policies)).rule? name =
      if name.same p.1 then some (ruleOf p.2) else (ofNamed policies).rule? name := by
  show (List.find? _ (p :: policies)).map _ = _
  rw [List.find?_cons]
  cases name.same p.1 <;> rfl

theorem rule?_ofNamed_eq_none : (ofNamed policies).rule? name = none ↔
    ∀ p ∈ policies, name.same p.1 = false := by
  show (List.find? _ policies).map _ = none ↔ _
  rw [Option.map_eq_none_iff, List.find?_eq_none]
  simp only [Bool.not_eq_true]

/-- **Each policy gives the rule under its name.** -/
theorem rule?_ofNamed_of_mem (h : IsMap policies) {p : Value × Policy} (hp : p ∈ policies)
    (hname : name.isHashable = true) (hsame : name.same p.1 = true) :
    (ofNamed policies).rule? name = some (ruleOf p.2) := by
  induction policies with
  | nil => exact absurd hp List.not_mem_nil
  | cons q policies ih =>
    rw [rule?_ofNamed_cons]
    rcases List.mem_cons.1 hp with rfl | hp
    · rw [if_pos hsame]
    · have hq : name.same q.1 = false := by
        rw [same_congr hname hsame, h.same_head p hp]
      rw [hq, if_neg Bool.false_ne_true, ih h.tail hp]

theorem exists_mem_of_rule?_ofNamed {rule : Rule} (h : (ofNamed policies).rule? name = some rule) :
    ∃ p ∈ policies, name.same p.1 = true ∧ ruleOf p.2 = rule := by
  obtain ⟨p, hfind, hrule⟩ := Option.map_eq_some_iff.1 h
  have hsame : name.same p.1 = true :=
    List.find?_some (p := fun p : Value × Policy => name.same p.1) hfind
  exact ⟨p, List.mem_of_find?_eq_some hfind, hsame, hrule⟩

/-- Under one name there is one policy. -/
theorem IsMap.eq_of_same (h : IsMap policies) {p q : Value × Policy} (hp : p ∈ policies)
    (hq : q ∈ policies) (hname : name.isHashable = true) (hpname : name.same p.1 = true)
    (hqname : name.same q.1 = true) : p = q := by
  induction policies with
  | nil => exact absurd hp List.not_mem_nil
  | cons first policies ih =>
    -- The first policy has the name of none of the others.
    have hne : ∀ r ∈ policies, name.same first.1 = true → name.same r.1 = true → False := by
      intro r hr hfirst hrname
      have hsame := h.same_head r hr
      rw [← same_congr hname hrname, hfirst] at hsame
      exact Bool.false_ne_true hsame.symm
    rcases List.mem_cons.1 hp with rfl | hp'
    · rcases List.mem_cons.1 hq with rfl | hq'
      · rfl
      · exact (hne q hq' hpname hqname).elim
    · rcases List.mem_cons.1 hq with rfl | hq'
      · exact (hne p hp' hqname hpname).elim
      · exact ih h.tail hp' hq'

/-- Where no name is repeated, every policy is the first of its name. -/
theorem IsMap.firsts_eq (h : IsMap policies) : policies.firsts = policies := by
  induction policies with
  | nil => rfl
  | cons p policies ih =>
    rw [Named.firsts, ih h.tail, List.filter_eq_self.2]
    intro q hq
    rw [same_comm (h.keys p List.mem_cons_self) (h.keys q (List.mem_cons_of_mem p hq)),
      h.same_head q hq]
    rfl

/-- Policies are found under a name from either side. -/
theorem find?_eq_rule? (hkeys : ∀ p ∈ policies, p.1.isHashable = true)
    (hname : name.isHashable = true) :
    (Named.find? name policies).map ruleOf = (ofNamed policies).rule? name := by
  induction policies with
  | nil => rfl
  | cons p policies ih =>
    rw [List.forall_mem_cons] at hkeys
    rw [find?_cons, rule?_ofNamed_cons, same_comm hkeys.1 hname, ← ih hkeys.2]
    cases name.same p.1 <;> rfl

theorem keys_of_withNames {table : Value} {policies : List Policy} {named : Named}
    (h : withNames table policies = .ok named) : ∀ p ∈ named, p.1.isHashable = true :=
  fun p hp => (named_of_withNames h p hp).1

theorem isMap_of_withNames {table : Value} {policies : List Policy} {named : Named}
    (h : withNames table policies = .ok named) (hdifferent : Different (named.map Prod.fst)) :
    IsMap named := ⟨keys_of_withNames h, hdifferent⟩

/-! ### Repeated names

Where names are repeated, the first policy of each name stands for all of them. -/

/-- The first policies of their names are under different names. -/
theorem isMap_firsts (hkeys : ∀ p ∈ policies, p.1.isHashable = true) : IsMap policies.firsts := by
  induction policies with
  | nil => exact ⟨by simp [Named.firsts], List.Pairwise.nil⟩
  | cons p policies ih =>
    rw [List.forall_mem_cons] at hkeys
    obtain ⟨hp, hpolicies⟩ := hkeys
    have hrest : IsMap ((Named.firsts policies).filter fun q => !p.1.same q.1) :=
      (ih hpolicies).sublist List.filter_sublist
    refine ⟨List.forall_mem_cons.2 ⟨hp, hrest.keys⟩, List.pairwise_cons.2 ⟨?_, hrest.different⟩⟩
    intro name hname
    obtain ⟨q, hq, rfl⟩ := List.mem_map.1 hname
    have hother : p.1.same q.1 = false := by simpa using (List.mem_filter.1 hq).2
    rw [same_comm (hrest.keys q hq) hp, hother]

/-- **Under each name the first policy is found**, whether or not the others are there. -/
theorem find?_firsts (hkeys : ∀ p ∈ policies, p.1.isHashable = true) (name : Value) :
    Named.find? name policies.firsts = Named.find? name policies := by
  induction policies with
  | nil => rfl
  | cons p policies ih =>
    rw [List.forall_mem_cons] at hkeys
    obtain ⟨hp, hpolicies⟩ := hkeys
    rw [Named.firsts, find?_cons, find?_cons, ← ih hpolicies]
    cases hsame : p.1.same name with
    | true => rfl
    | false =>
      -- What has the name does not have that of `p`.
      have hkept : ∀ q : Value × Policy,
          ((!p.1.same q.1) = true ∧ q.1.same name = true) ↔ q.1.same name = true := by
        intro q
        refine and_iff_right_of_imp fun hq => ?_
        cases hother : p.1.same q.1 with
        | false => rfl
        | true =>
          rw [same_trans hp hother hq] at hsame
          cases hsame
      rw [if_neg Bool.false_ne_true, if_neg Bool.false_ne_true, Named.find?, Named.find?,
        List.find?_filter]
      simp only [hkept, Bool.decide_eq_true]

theorem firsts_subset (policies : Named) : policies.firsts ⊆ policies := by
  induction policies with
  | nil => exact List.Subset.refl []
  | cons p policies ih =>
    refine List.cons_subset_cons p fun q hq => ?_
    exact ih (List.mem_of_mem_filter hq)

theorem rule?_firsts (hkeys : ∀ p ∈ policies, p.1.isHashable = true)
    (hname : name.isHashable = true) :
    (ofNamed policies.firsts).rule? name = (ofNamed policies).rule? name := by
  rw [← find?_eq_rule? (isMap_firsts hkeys).keys hname, find?_firsts hkeys,
    find?_eq_rule? hkeys hname]

/-- Each policy has the name of one of the first policies. -/
theorem exists_first_of_mem (hkeys : ∀ p ∈ policies, p.1.isHashable = true) {p : Value × Policy}
    (hp : p ∈ policies) : ∃ q ∈ policies.firsts, p.1.same q.1 = true := by
  have hsome : (ofNamed policies.firsts).rule? p.1 ≠ none := by
    rw [rule?_firsts hkeys (hkeys p hp), Ne, rule?_ofNamed_eq_none]
    intro hnone
    have hself := hnone p hp
    rw [same_refl] at hself
    cases hself
  obtain ⟨rule, hrule⟩ := Option.ne_none_iff_exists'.1 hsome
  obtain ⟨q, hq, hsame, -⟩ := exists_mem_of_rule?_ofNamed hrule
  exact ⟨q, hq, hsame⟩

end Maps

/-! ### Lists of statements -/

/-- Drops cannot fail, and leave no rule under their names. -/
theorem run_dropStatements (table : Value) (m : RuleMap) (names : List Value) :
    ∃ result, m.run table (names.map (.drop table)) = some result ∧
      ∀ name, result.rule? name =
        if names.any (fun n => name.same n) then none else m.rule? name := by
  induction names generalizing m with
  | nil => exact ⟨m, rfl, fun name => rfl⟩
  | cons n names ih =>
    obtain ⟨result, hrun, hresult⟩ := ih (m.put n none)
    refine ⟨result, ?_, ?_⟩
    · rw [List.map_cons, run_cons, exec, same_refl, if_pos rfl, Option.bind_some, hrun]
    · intro name
      rw [hresult name, rule?_put, List.any_cons]
      cases name.same n with
      | true => simp
      | false => simp

/-- Policies can be created under different names that are free. -/
theorem run_createStatements (table : Value) {m : RuleMap} {policies : Named}
    (h : IsMap policies) (hfree : ∀ p ∈ policies, m.rule? p.1 = none) :
    ∃ result, m.run table (policies.map fun p => .create table p.1 p.2) = some result ∧
      ∀ name : Value, name.isHashable = true →
        result.rule? name = ((ofNamed policies).rule? name).or (m.rule? name) := by
  induction policies generalizing m with
  | nil => exact ⟨m, rfl, fun name _ => rfl⟩
  | cons p policies ih =>
    rw [List.forall_mem_cons] at hfree
    obtain ⟨hpfree, hfree⟩ := hfree
    have hrest : ∀ q ∈ policies, (m.put p.1 (some (ruleOf p.2))).rule? q.1 = none := by
      intro q hq
      rw [rule?_put, h.same_head q hq, if_neg Bool.false_ne_true, hfree q hq]
    obtain ⟨result, hrun, hresult⟩ := ih h.tail hrest
    refine ⟨result, ?_, ?_⟩
    · rw [List.map_cons, run_cons, exec, same_refl, if_pos rfl, hpfree]
      exact hrun
    · intro name hname
      rw [hresult name hname, rule?_put, rule?_ofNamed_cons]
      cases hsame : name.same p.1 with
      | false => rfl
      | true =>
        have hnone : (ofNamed policies).rule? name = none := by
          refine rule?_ofNamed_eq_none.2 ?_
          intro q hq
          rw [same_congr hname hsame, same_comm (h.keys p List.mem_cons_self)
            (h.keys q (List.mem_cons_of_mem p hq)), h.same_head q hq]
        rw [hnone]
        rfl

end SchemaCompiler.RowSecurity
