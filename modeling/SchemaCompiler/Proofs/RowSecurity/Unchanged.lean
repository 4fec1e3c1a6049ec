import Mathlib
import SchemaCompiler.Proofs.RowSecurity.Minimality
import SchemaCompiler.Proofs.Value.Settings

/-!
# When nothing changes

A comparison without statements is read as "nothing to migrate".  Here is what it means, for lists
in which names may be repeated: both lists have the same names, and each new policy has the rule of
the first old one of its name.  Descriptions have no part in this but for the names made of them.

* `namedRules` — all that is compared: the rules of policies with their names;
* `Unchanged` — the same names, and under each the rule of the first policy;
* `statements_eq_nil_iff` — the changes are empty if nothing has to be done for any policy;
* `unchanged_self_iff` — a list is unchanged against itself if each of its names has one rule;
* `changes_eq_nil_iff` — **when the changes of a table and of a schema are empty.**
-/

namespace SchemaCompiler.RowSecurity

open RuleMap Value

/-! ### What is compared -/

/-- The rules of policies with their names. -/
def rulesOf (policies : Named) : List (Value × Rule) := policies.map fun p => (p.1, ruleOf p.2)

/-- The rules of the policies of a table with their names, which have to be usable as keys. -/
def namedRules (table : Value) (policies : List Policy) : Except Fault (List (Value × Rule)) :=
  (withNames table policies).map rulesOf

/-- Two lists of rules have the same names, and each rule of the second is the same as the first
rule of its name in the first. -/
structure Unchanged (before after : List (Value × Rule)) : Prop where
  kept : ∀ r ∈ before, ∃ q ∈ after, r.1.same q.1 = true
  known : ∀ q ∈ after, ∃ r ∈ before, q.1.same r.1 = true
  rules : ∀ q ∈ after, ∀ r, before.find? (fun r => q.1.same r.1) = some r → r.2.same q.2 = true

/-- The policies of a table have names, and nothing has changed about them. -/
def Steady (table : Value) (old new : List Policy) : Prop :=
  ∃ before after, namedRules table old = .ok before ∧ namedRules table new = .ok after ∧
    Unchanged before after

/-- In no rule a mapping has one key twice. -/
structure Rule.IsProper (r : Rule) : Prop where
  condition : r.condition.IsProper
  name : r.options.name.IsProper
  roles : r.options.roles.IsProper
  withCheck : r.options.withCheck.IsProper

theorem Rule.IsPlain.isProper {r : Rule} (h : r.IsPlain) : r.IsProper :=
  ⟨h.condition.isProper, h.name.isProper, h.roles.isProper, h.withCheck.isProper⟩

/-- Rules that are the same as one rule are the same. -/
theorem Rule.IsProper.same_euclid {r first second : Rule} (h : r.IsProper)
    (hfirst : r.same first = true) (hsecond : r.same second = true) :
    first.same second = true := by
  simp only [Rule.same, Bool.and_eq_true, beq_iff_eq] at hfirst hsecond ⊢
  obtain ⟨⟨⟨⟨haction, hcondition⟩, hname⟩, hroles⟩, hcheck⟩ := hfirst
  obtain ⟨⟨⟨⟨haction', hcondition'⟩, hname'⟩, hroles'⟩, hcheck'⟩ := hsecond
  exact ⟨⟨⟨⟨haction.symm.trans haction', h.condition.same_euclid hcondition hcondition'⟩,
    h.name.same_euclid hname hname'⟩, h.roles.same_euclid hroles hroles'⟩,
    h.withCheck.same_euclid hcheck hcheck'⟩

/-! ### The changes of a table -/

section Table

variable {before after : Named} {table : Value}

/-- Nothing is done if no old policy is missing, and no new one is unknown or has changed. -/
theorem statements_eq_nil_iff (hbefore : ∀ p ∈ before, p.1.isHashable = true)
    (hafter : ∀ q ∈ after, q.1.isHashable = true) :
    (reconcile before after).statements table = [] ↔
      (∀ p ∈ before, isMissing after p = false) ∧
        ∀ q ∈ after, (isMissing before q || isChanged before q) = false := by
  have hdropped : (reconcile before after).dropped = [] ↔
      ∀ p ∈ before, isMissing after p = false := by
    rw [dropped_eq_firsts hbefore hafter, List.map_eq_nil_iff, List.filter_eq_nil_iff]
    simp only [Bool.not_eq_true]
    constructor
    · intro h p hp
      obtain ⟨first, hfirst, hsame⟩ := exists_first_of_mem hbefore hp
      rw [isMissing, (ofNamed after).congr (hbefore p hp) hsame]
      exact h first hfirst
    · intro h p hp
      exact h p (firsts_subset before hp)
  have hcreated : (reconcile before after).created = [] ↔
      ∀ q ∈ after, (isMissing before q || isChanged before q) = false := by
    rw [created_eq hbefore hafter, List.filter_eq_nil_iff]
    simp only [Bool.not_eq_true]
  have hrecreated : (∀ q ∈ after, (isMissing before q || isChanged before q) = false) →
      (reconcile before after).recreated = [] := by
    intro h
    rw [recreated_eq hbefore hafter, List.map_eq_nil_iff, List.filter_eq_nil_iff]
    intro q hq hchanged
    have hneither := h q hq
    rw [hchanged, Bool.or_true] at hneither
    cases hneither
  rw [Changes.statements, List.append_eq_nil_iff, List.append_eq_nil_iff, List.map_eq_nil_iff,
    List.map_eq_nil_iff, List.map_eq_nil_iff, hdropped, hcreated]
  constructor
  · rintro ⟨⟨hkept, -⟩, hneither⟩
    exact ⟨hkept, hneither⟩
  · rintro ⟨hkept, hneither⟩
    exact ⟨⟨hkept, hrecreated hneither⟩, hneither⟩

theorem rule?_ofNamed (policies : Named) (name : Value) : (ofNamed policies).rule? name =
    ((rulesOf policies).find? fun r => name.same r.1).map Prod.snd := by
  rw [rulesOf, List.find?_map, Option.map_map]
  rfl

/-- **Nothing is done exactly if nothing has changed.** -/
theorem statements_eq_nil_iff_unchanged (hbefore : ∀ p ∈ before, p.1.isHashable = true)
    (hafter : ∀ q ∈ after, q.1.isHashable = true) :
    (reconcile before after).statements table = [] ↔
      Unchanged (rulesOf before) (rulesOf after) := by
  have hkept : (∀ p ∈ before, isMissing after p = false) ↔
      ∀ r ∈ rulesOf before, ∃ q ∈ rulesOf after, r.1.same q.1 = true := by
    rw [rulesOf, List.forall_mem_map]
    refine forall₂_congr fun p hp => ?_
    rw [isMissing, rule?_ofNamed, Option.isNone_map, ← Bool.not_eq_true, Option.isNone_iff_eq_none,
      List.find?_eq_none]
    push Not
    rfl
  have hneither : (∀ q ∈ after, (isMissing before q || isChanged before q) = false) ↔
      (∀ q ∈ rulesOf after, ∃ r ∈ rulesOf before, q.1.same r.1 = true) ∧
        ∀ q ∈ rulesOf after, ∀ r, (rulesOf before).find? (fun r => q.1.same r.1) = some r →
          r.2.same q.2 = true := by
    rw [← forall₂_and, rulesOf, List.forall_mem_map]
    refine forall₂_congr fun q hq => ?_
    rw [needsNothing_iff, rule?_ofNamed]
    cases hfind : (rulesOf before).find? fun r => q.1.same r.1 with
    | none =>
      rw [List.find?_eq_none] at hfind
      simp only [Option.map_none, reduceCtorEq, false_and, exists_false, false_iff, not_and]
      rintro ⟨r, hr, hsame⟩
      exact absurd hsame (hfind r hr)
    | some r =>
      have hr : ∃ r ∈ rulesOf before, q.1.same r.1 = true :=
        ⟨r, List.mem_of_find?_eq_some hfind,
          List.find?_some (p := fun r : Value × Rule => q.1.same r.1) hfind⟩
      simp [hr, Alike]
  rw [statements_eq_nil_iff hbefore hafter, hkept, hneither]
  constructor
  · rintro ⟨hkept, hknown, hrules⟩
    exact ⟨hkept, hknown, hrules⟩
  · rintro ⟨hkept, hknown, hrules⟩
    exact ⟨hkept, hknown, hrules⟩

theorem policyChanges_eq_nil_iff (table : Value) (old new : List Policy) :
    (policyChanges table old new).outcome = .ok [] ↔ Steady table old new := by
  rw [outcome_policyChanges, bind_eq_ok]
  constructor
  · rintro ⟨before, hold, h⟩
    obtain ⟨after, hnew, h⟩ := bind_eq_ok.1 h
    refine ⟨rulesOf before, rulesOf after, map_eq_ok.2 ⟨before, hold, rfl⟩,
      map_eq_ok.2 ⟨after, hnew, rfl⟩, ?_⟩
    exact (statements_eq_nil_iff_unchanged (keys_of_withNames hold) (keys_of_withNames hnew)).1
      (Except.ok.inj h)
  · rintro ⟨_, _, holdRules, hnewRules, hunchanged⟩
    obtain ⟨before, hold, rfl⟩ := map_eq_ok.1 holdRules
    obtain ⟨after, hnew, rfl⟩ := map_eq_ok.1 hnewRules
    refine ⟨before, hold, bind_eq_ok.2 ⟨after, hnew, congrArg Except.ok ?_⟩⟩
    exact (statements_eq_nil_iff_unchanged (keys_of_withNames hold)
      (keys_of_withNames hnew)).2 hunchanged

/-- Against no policies only no policies are steady. -/
theorem steady_nil_right_iff {policies : List Policy} :
    Steady table policies [] ↔ policies = [] := by
  constructor
  · rintro ⟨_, _, holdRules, hnewRules, hunchanged⟩
    obtain ⟨before, hold, rfl⟩ := map_eq_ok.1 holdRules
    rw [← Except.ok.inj hnewRules] at hunchanged
    have hbefore : before = [] := by
      refine List.eq_nil_iff_forall_not_mem.2 fun p hp => ?_
      obtain ⟨q, hq, -⟩ := hunchanged.kept _ (List.mem_map_of_mem hp)
      exact absurd hq List.not_mem_nil
    rw [withNames, mapM_eq_ok, hbefore, List.forall₂_nil_right_iff] at hold
    exact hold
  · rintro rfl
    exact ⟨[], [], rfl, rfl, by simp, by simp, by simp⟩

end Table

/-! ### A list against itself -/

/-- **Nothing changes from a list to itself exactly if each of its names has one rule.** -/
theorem unchanged_self_iff {rules : List (Value × Rule)}
    (hkeys : ∀ r ∈ rules, r.1.isHashable = true) (hproper : ∀ r ∈ rules, r.2.IsProper) :
    Unchanged rules rules ↔
      ∀ r ∈ rules, ∀ q ∈ rules, r.1.same q.1 = true → r.2.same q.2 = true := by
  constructor
  · intro h r hr q hq hname
    -- Both rules are the same as the first one of their name.
    have hsome : (rules.find? fun x => r.1.same x.1).isSome = true :=
      List.find?_isSome.2 ⟨r, hr, same_refl r.1⟩
    obtain ⟨first, hfirst⟩ := Option.isSome_iff_exists.1 hsome
    have hmem : first ∈ rules := List.mem_of_find?_eq_some hfirst
    have hfirst' : (rules.find? fun x => q.1.same x.1) = some first := by
      simpa only [same_congr (hkeys r hr) hname] using hfirst
    exact (hproper first hmem).same_euclid (h.rules r hr first hfirst) (h.rules q hq first hfirst')
  · intro h
    refine ⟨fun r hr => ⟨r, hr, same_refl r.1⟩, fun r hr => ⟨r, hr, same_refl r.1⟩, ?_⟩
    intro q hq r hfind
    have hr : r ∈ rules := List.mem_of_find?_eq_some hfind
    have hname : q.1.same r.1 = true :=
      List.find?_some (p := fun r : Value × Rule => q.1.same r.1) hfind
    exact h r hr q hq (same_symm (hkeys q hq) hname)

/-- What is known of the rules of policies with names. -/
theorem forall_mem_of_namedRules {table : Value} {policies : List Policy}
    {rules : List (Value × Rule)} (h : namedRules table policies = .ok rules) :
    ∀ r ∈ rules, r.1.isHashable = true ∧ ∃ p ∈ policies, r.2 = ruleOf p := by
  obtain ⟨named, hnamed, rfl⟩ := map_eq_ok.1 h
  refine List.forall_mem_map.2 fun p hp => ⟨keys_of_withNames hnamed p hp, ?_⟩
  obtain ⟨policy, hpolicy, hitem⟩ := exists_item_of_mem hnamed hp
  obtain ⟨name, -, hname⟩ := bind_eq_ok.1 hitem
  split at hname
  next =>
    rw [← Except.ok.inj hname]
    exact ⟨policy, hpolicy, rfl⟩
  next => cases hname

/-! ### Descriptions -/

/-- A policy with its name, as far as it is compared. -/
def namedRule (table : Value) (p : Policy) : Except Fault (Value × Rule) := do
  let name ← policyName table p
  if name.isHashable then return (name, ruleOf p) else .error (.misuse .wrongType)

theorem namedRules_eq_mapM (table : Value) (policies : List Policy) :
    namedRules table policies = policies.mapM (namedRule table) := by
  have hmap : namedRules table policies = (withNames table policies).map
      (List.map fun p => (p.1, ruleOf p.2)) := rfl
  rw [hmap, withNames, ← mapM_map]
  refine congrArg (policies.mapM ·) (funext fun p => ?_)
  rw [namedRule]
  cases policyName table p with
  | error fault => rfl
  | ok name =>
    rw [ok_bind, ok_bind]
    split <;> rfl

/-- Two lists of policies differ in descriptions only, and these do not make for other names. -/
def DifferInWords (table : Value) (policies others : List Policy) : Prop :=
  List.Forall₂ (fun p q => policyName table p = policyName table q ∧ ruleOf p = ruleOf q)
    policies others

theorem DifferInWords.namedRules_eq {table : Value} {policies others : List Policy}
    (h : DifferInWords table policies others) :
    namedRules table policies = namedRules table others := by
  rw [namedRules_eq_mapM, namedRules_eq_mapM]
  induction h with
  | nil => rfl
  | cons hpq _ ih =>
    rw [List.mapM_cons, List.mapM_cons, ih, namedRule, namedRule, hpq.1, hpq.2]

/-! ### The changes of a schema -/

/-- Lists that come to nothing together are empty one by one. -/
theorem flatten_mapM_eq_nil_iff {α β : Type} {f : α → Except Fault (List β)} {as : List α} :
    (∃ bs, as.mapM f = .ok bs ∧ bs.flatten = []) ↔ ∀ a ∈ as, f a = .ok [] := by
  constructor
  · rintro ⟨bs, hbs, hnil⟩ a ha
    obtain ⟨b, hb, hresult⟩ := exists_result_of_mem hbs ha
    rw [hresult, List.flatten_eq_nil_iff.1 hnil b hb]
  · intro h
    refine ⟨as.map fun _ => [], mapM_eq_ok_map h, ?_⟩
    rw [List.flatten_eq_nil_iff, List.forall_mem_map]
    exact fun a _ => rfl

theorem schemaChanges_eq_nil_iff (old new : Schema) : (schemaChanges old new).outcome = .ok [] ↔
    (∀ t ∈ new.tables,
      Steady t.name (((old.table? t.name).map Table.policies).getD []) t.policies) ∧
    ∀ t ∈ old.tables, new.table? t.name = none → t.policies = [] := by
  have hgone : (∀ t ∈ old.tables.filter (fun t => (new.table? t.name).isNone),
      (policyChanges t.name t.policies []).outcome = .ok []) ↔
      ∀ t ∈ old.tables, new.table? t.name = none → t.policies = [] := by
    simp only [policyChanges_eq_nil_iff, steady_nil_right_iff, List.mem_filter,
      Option.isNone_iff_eq_none, and_imp]
  simp only [← policyChanges_eq_nil_iff]
  rw [← hgone, ← flatten_mapM_eq_nil_iff, ← flatten_mapM_eq_nil_iff]
  simp only [schemaChanges, Traced.outcome_bind, Traced.outcome_each, Traced.outcome_pure]
  rw [bind_eq_ok]
  constructor
  · rintro ⟨kept, hkept, h⟩
    obtain ⟨gone, hgone, h⟩ := bind_eq_ok.1 h
    obtain ⟨hkeptNil, hgoneNil⟩ := List.append_eq_nil_iff.1 (Except.ok.inj h)
    exact ⟨⟨kept, hkept, hkeptNil⟩, ⟨gone, hgone, hgoneNil⟩⟩
  · rintro ⟨⟨kept, hkept, hkeptNil⟩, ⟨gone, hgone, hgoneNil⟩⟩
    refine ⟨kept, hkept, bind_eq_ok.2 ⟨gone, hgone, ?_⟩⟩
    rw [hkeptNil, hgoneNil]
    rfl

/-- **When changes are empty.**  Those of a table are if all its policies, old and new, have names
that can be keys, both lists have the same names, and every new policy has the rule of the first old
one of its name.  So nothing changes from a list to itself exactly if policies of one name have one
rule.  The changes of a schema are empty if this holds of each new table against the old one of its
name, or against no policies, and every table that only the old schema has is without policies.
Descriptions that make for the same names do not matter. -/
theorem changes_eq_nil_iff :
    (∀ table old new, (policyChanges table old new).outcome = .ok [] ↔ Steady table old new) ∧
    (∀ table policies, (∀ p ∈ policies, (ruleOf p).IsProper) →
      ((policyChanges table policies policies).outcome = .ok [] ↔
        ∃ rules, namedRules table policies = .ok rules ∧
          ∀ r ∈ rules, ∀ q ∈ rules, r.1.same q.1 = true → r.2.same q.2 = true)) ∧
    (∀ old new : Schema, (schemaChanges old new).outcome = .ok [] ↔
      (∀ t ∈ new.tables,
        Steady t.name (((old.table? t.name).map Table.policies).getD []) t.policies) ∧
      ∀ t ∈ old.tables, new.table? t.name = none → t.policies = []) ∧
    ∀ table old new old' new', DifferInWords table old old' → DifferInWords table new new' →
      ((policyChanges table old' new').outcome = .ok [] ↔
        (policyChanges table old new).outcome = .ok []) := by
  refine ⟨policyChanges_eq_nil_iff, ?_, schemaChanges_eq_nil_iff, ?_⟩
  · intro table policies hproper
    have hself : ∀ rules, namedRules table policies = .ok rules → (Unchanged rules rules ↔
        ∀ r ∈ rules, ∀ q ∈ rules, r.1.same q.1 = true → r.2.same q.2 = true) := by
      intro rules hrules
      have hrule := forall_mem_of_namedRules hrules
      refine unchanged_self_iff (fun r hr => (hrule r hr).1) fun r hr => ?_
      obtain ⟨p, hp, hpr⟩ := (hrule r hr).2
      exact hpr ▸ hproper p hp
    rw [policyChanges_eq_nil_iff]
    constructor
    · rintro ⟨rules, rules', hrules, hrules', hunchanged⟩
      obtain rfl := Except.ok.inj (hrules.symm.trans hrules')
      exact ⟨rules, hrules, (hself rules hrules).1 hunchanged⟩
    · rintro ⟨rules, hrules, hsame⟩
      exact ⟨rules, rules, hrules, hrules, (hself rules hrules).2 hsame⟩
  · intro table old new old' new' hold hnew
    rw [policyChanges_eq_nil_iff, policyChanges_eq_nil_iff, Steady, Steady, hold.namedRules_eq,
      hnew.namedRules_eq]

theorem isPlain_policyOf (action : PolicyAction) (description condition name : String) :
    (ruleOf (policyOf action description condition (.text name))).IsPlain :=
  ⟨trivial, trivial, trivial, trivial⟩

/-- A policy with a name of its own keeps it in whatever words it is described. -/
theorem differInWords_policyOf (table : Value) (action : PolicyAction)
    (description description' condition : String) {name : String}
    (h : (Value.text name).isTrue = true) :
    policyName table (policyOf action description condition (.text name)) =
      policyName table (policyOf action description' condition (.text name)) ∧
    ruleOf (policyOf action description condition (.text name)) =
      ruleOf (policyOf action description' condition (.text name)) :=
  ⟨(if_pos h).trans (if_pos h).symm, rfl⟩

/-- Policies of the notes, two of them of one name and with one rule. -/
def readTwice : List Policy :=
  [policyOf .select "Anyone may read" "true" (.text "read"),
    policyOf .update "Owners edit" "owner = me()" (.text "edit"),
    policyOf .select "Open to everyone" "true" (.text "read")]

/-- The same policies in other words. -/
def readTwiceReworded : List Policy :=
  [policyOf .select "Everyone may read" "true" (.text "read"),
    policyOf .update "Notes are edited by their owners" "owner = me()" (.text "edit"),
    policyOf .select "Nothing is hidden" "true" (.text "read")]

/-- Policies of one name with two rules. -/
def readDifferently : List Policy :=
  [policyOf .select "Anyone may read" "true" (.text "read"),
    policyOf .select "Owners may read" "owner = me()" (.text "read")]

/-- One rule under a repeated name is no change, in whatever words; two rules are one. -/
theorem changes_readTwice :
    (policyChanges (.text "notes") readTwice readTwice).outcome = .ok [] ∧
    (policyChanges (.text "notes") readTwice readTwiceReworded).outcome = .ok [] ∧
    (policyChanges (.text "notes") readDifferently readDifferently).outcome ≠ .ok [] := by
  obtain ⟨-, hself, -, hwords⟩ := changes_eq_nil_iff
  have hproper : ∀ p ∈ readTwice, (ruleOf p).IsProper := by
    simp only [readTwice, List.forall_mem_cons, List.not_mem_nil]
    exact ⟨(isPlain_policyOf _ _ _ _).isProper, (isPlain_policyOf _ _ _ _).isProper,
      (isPlain_policyOf _ _ _ _).isProper, nofun⟩
  have hproper' : ∀ p ∈ readDifferently, (ruleOf p).IsProper := by
    simp only [readDifferently, List.forall_mem_cons, List.not_mem_nil]
    exact ⟨(isPlain_policyOf _ _ _ _).isProper, (isPlain_policyOf _ _ _ _).isProper, nofun⟩
  have hrules : namedRules (.text "notes") readTwice =
      .ok (rulesOf (["read", "edit", "read"].map Value.text |>.zip readTwice)) := rfl
  have hrules' : namedRules (.text "notes") readDifferently =
      .ok (rulesOf (["read", "read"].map Value.text |>.zip readDifferently)) := rfl
  have hnothing : (policyChanges (.text "notes") readTwice readTwice).outcome = .ok [] :=
    (hself _ _ hproper).2 ⟨_, hrules, by decide +kernel⟩
  have hsame : DifferInWords (.text "notes") readTwice readTwice :=
    .cons ⟨rfl, rfl⟩ (.cons ⟨rfl, rfl⟩ (.cons ⟨rfl, rfl⟩ .nil))
  have hreworded : DifferInWords (.text "notes") readTwice readTwiceReworded :=
    .cons (differInWords_policyOf _ _ _ _ _ rfl) (.cons (differInWords_policyOf _ _ _ _ _ rfl)
      (.cons (differInWords_policyOf _ _ _ _ _ rfl) .nil))
  refine ⟨hnothing, (hwords _ _ _ _ _ hsame hreworded).2 hnothing, fun h => ?_⟩
  obtain ⟨rules, hfound, hone⟩ := (hself _ _ hproper').1 h
  rw [hrules', Except.ok.injEq] at hfound
  rw [← hfound] at hone
  revert hone
  decide +kernel

end SchemaCompiler.RowSecurity
