import Mathlib
import SchemaCompiler.Proofs.RowSecurity.Minimality

/-!
# Repeated names

Nothing keeps two policies of a table from having one name, be it given to both or made of the same
three words.  The two sides of a comparison treat such policies differently: of the old ones only
the first counts, but of the new ones every single one is compared with it.  So a name may be
dropped and created more than once, and this module says how often.

* `PolicyStatement.drops`, `PolicyStatement.creates` — what a statement does to a name;
* `countP_dropped` — a name that goes is dropped once, however often the old list has it;
* `countP_policyChanges` — **how often each name is dropped and created**, and that no name is
  dropped or created twice exactly if the policies that are created are under different names;
* `policyChanges_shared` — a name that is dropped and created twice.
-/

namespace SchemaCompiler.RowSecurity

open RuleMap Value

/-! ### What a statement does to a name -/

/-- Whether a statement drops a policy; otherwise it creates one. -/
def PolicyStatement.isDrop : PolicyStatement → Bool
  | .drop _ _ => true
  | .create _ _ _ => false

/-- Whether a statement drops a name of a table. -/
def PolicyStatement.drops (table name : Value) (s : PolicyStatement) : Bool :=
  s.isDrop && s.isAbout table name

/-- Whether a statement creates a policy under a name of a table. -/
def PolicyStatement.creates (table name : Value) (s : PolicyStatement) : Bool :=
  !s.isDrop && s.isAbout table name

section Counts

variable {table name : Value}

theorem countP_drops_drop (names : List Value) :
    (names.map (.drop table)).countP (PolicyStatement.drops table name) =
      names.countP fun n => name.same n := by
  rw [List.countP_map]
  refine List.countP_congr fun n _ => ?_
  show (true && (table.same table && name.same n)) = true ↔ _
  rw [same_refl, Bool.true_and, Bool.true_and]

theorem countP_drops_create (policies : Named) :
    (policies.map fun p => .create table p.1 p.2).countP (PolicyStatement.drops table name) = 0 := by
  rw [List.countP_map, List.countP_eq_zero]
  intro p _ h
  exact Bool.false_ne_true h

theorem countP_creates_drop (names : List Value) :
    (names.map (.drop table)).countP (PolicyStatement.creates table name) = 0 := by
  rw [List.countP_map, List.countP_eq_zero]
  intro n _ h
  exact Bool.false_ne_true h

theorem countP_creates_create (policies : Named) :
    (policies.map fun p => .create table p.1 p.2).countP (PolicyStatement.creates table name) =
      policies.countP fun p => name.same p.1 := by
  rw [List.countP_map]
  refine List.countP_congr fun p _ => ?_
  show (true && (table.same table && name.same p.1)) = true ↔ _
  rw [same_refl, Bool.true_and, Bool.true_and]

/-- Drops are found in the first two groups of statements. -/
theorem countP_drops_statements (c : Changes) :
    (c.statements table).countP (PolicyStatement.drops table name) =
      (c.dropped.countP fun n => name.same n) + c.recreated.countP fun n => name.same n := by
  rw [Changes.statements, List.countP_append, List.countP_append, countP_drops_drop,
    countP_drops_drop, countP_drops_create, Nat.add_zero]

/-- Creations are found in the last group of statements. -/
theorem countP_creates_statements (c : Changes) :
    (c.statements table).countP (PolicyStatement.creates table name) =
      c.created.countP fun p => name.same p.1 := by
  rw [Changes.statements, List.countP_append, List.countP_append, countP_creates_drop,
    countP_creates_drop, countP_creates_create, Nat.zero_add]

end Counts

/-! ### How often a name occurs -/

section Occurrences

variable {policies before after : Named} {name : Value}

/-- Under different names there is one policy for each name that has a rule. -/
theorem IsMap.countP_same (h : IsMap policies) (hname : name.isHashable = true) :
    (policies.countP fun p => name.same p.1) =
      ((ofNamed policies).rule? name).isSome.toNat := by
  induction policies with
  | nil => rfl
  | cons p policies ih =>
    rw [countP_cons_toNat, ih h.tail, rule?_ofNamed_cons]
    cases hsame : name.same p.1 with
    | false => rfl
    | true =>
      -- The name is that of the first policy, so none of the others has it.
      have hrest : (ofNamed policies).rule? name = none := by
        refine rule?_ofNamed_eq_none.2 fun q hq => ?_
        rw [same_congr hname hsame, same_comm (h.keys p List.mem_cons_self)
          (h.keys q (List.mem_cons_of_mem p hq)), h.same_head q hq]
      rw [hrest]
      rfl

/-- A name has a rule among policies that have been picked out if the one that it had is among
them. -/
theorem isSome_rule?_filter (h : IsMap policies) (hname : name.isHashable = true)
    {picked : Value × Policy → Bool} {isPicked : Bool}
    (hpicked : ∀ p ∈ policies, name.same p.1 = true → picked p = isPicked) :
    ((ofNamed (policies.filter picked)).rule? name).isSome =
      (((ofNamed policies).rule? name).isSome && isPicked) := by
  have hmap : IsMap (policies.filter picked) := h.sublist List.filter_sublist
  cases hrule : (ofNamed policies).rule? name with
  | none =>
    have hnone : (ofNamed (policies.filter picked)).rule? name = none := by
      refine rule?_ofNamed_eq_none.2 fun p hp => ?_
      exact rule?_ofNamed_eq_none.1 hrule p (List.mem_of_mem_filter hp)
    rw [hnone]
    rfl
  | some rule =>
    obtain ⟨p, hp, hsame, rfl⟩ := exists_mem_of_rule?_ofNamed hrule
    cases hp' : picked p with
    | true =>
      rw [rule?_ofNamed_of_mem hmap (List.mem_filter.2 ⟨hp, hp'⟩) hname hsame,
        ← hpicked p hp hsame, hp']
      rfl
    | false =>
      have hnone : (ofNamed (policies.filter picked)).rule? name = none := by
        refine rule?_ofNamed_eq_none.2 fun q hq => ?_
        obtain ⟨hq, hq'⟩ := List.mem_filter.1 hq
        rw [← Bool.not_eq_true]
        intro hqname
        rw [h.eq_of_same hq hp hname hqname hsame, hp'] at hq'
        cases hq'
      rw [hnone, ← hpicked p hp hsame, hp']
      rfl

/-- **A name that goes is dropped once**, however often the old list has it; no other is. -/
theorem countP_dropped (hbefore : ∀ p ∈ before, p.1.isHashable = true)
    (hafter : ∀ q ∈ after, q.1.isHashable = true) (hname : name.isHashable = true) :
    ((reconcile before after).dropped.countP fun n => name.same n) =
      (((ofNamed before).rule? name).isSome && ((ofNamed after).rule? name).isNone).toNat := by
  have hfirsts : IsMap before.firsts := isMap_firsts hbefore
  have hmissing : ∀ p ∈ before.firsts, name.same p.1 = true →
      isMissing after p = ((ofNamed after).rule? name).isNone := by
    intro p _ hsame
    rw [isMissing, (ofNamed after).congr hname hsame]
  rw [dropped_eq_firsts hbefore hafter, List.countP_map]
  show ((before.firsts.filter (isMissing after)).countP fun p => name.same p.1) = _
  rw [(hfirsts.sublist List.filter_sublist).countP_same hname,
    isSome_rule?_filter hfirsts hname hmissing, rule?_firsts hbefore hname]

/-- A name of the new list is dropped to be created anew once for each policy that has it with
another rule than before. -/
theorem countP_recreated (hbefore : ∀ p ∈ before, p.1.isHashable = true)
    (hafter : ∀ q ∈ after, q.1.isHashable = true) :
    ((reconcile before after).recreated.countP fun n => name.same n) =
      after.countP fun q => name.same q.1 && isChanged before q := by
  rw [recreated_eq hbefore hafter, List.countP_map, List.countP_filter]
  rfl

/-- A policy is created under a name once for each policy that has it without a rule before, or with
another one. -/
theorem countP_created (hbefore : ∀ p ∈ before, p.1.isHashable = true)
    (hafter : ∀ q ∈ after, q.1.isHashable = true) :
    ((reconcile before after).created.countP fun q => name.same q.1) =
      after.countP fun q => name.same q.1 && (isMissing before q || isChanged before q) := by
  rw [created_eq hbefore hafter, List.countP_filter]

/-- Names all differ if none of them occurs twice. -/
theorem different_iff_countP_le_one (h : ∀ p ∈ policies, p.1.isHashable = true) :
    Different (policies.map Prod.fst) ↔
      ∀ name : Value, name.isHashable = true →
        (policies.countP fun p => name.same p.1) ≤ 1 := by
  constructor
  · intro hdifferent name hname
    rw [IsMap.countP_same ⟨h, hdifferent⟩ hname]
    exact Bool.toNat_le _
  · intro hcount
    induction policies with
    | nil => exact List.Pairwise.nil
    | cons p policies ih =>
      rw [List.forall_mem_cons] at h
      obtain ⟨hp, hpolicies⟩ := h
      have hfirst := hcount p.1 hp
      rw [countP_cons_toNat, same_refl] at hfirst
      have hrest : (policies.countP fun q => p.1.same q.1) = 0 :=
        Nat.le_zero.1 (Nat.le_of_succ_le_succ hfirst)
      refine List.pairwise_cons.2 ⟨?_, ih hpolicies fun name hname => ?_⟩
      · intro name hname
        obtain ⟨q, hq, rfl⟩ := List.mem_map.1 hname
        rw [same_comm (hpolicies q hq) hp, ← Bool.not_eq_true]
        exact List.countP_eq_zero.1 hrest q hq
      · have hle := hcount name hname
        rw [countP_cons_toNat] at hle
        exact Nat.le_trans (Nat.le_add_right _ _) hle

/-- A name that is created once at most is dropped once at most: either it goes, or it is dropped
to be created anew. -/
theorem countP_drops_le_one
    (h : (after.countP fun q => name.same q.1 && (isMissing before q || isChanged before q)) ≤ 1) :
    (((ofNamed before).rule? name).isSome && ((ofNamed after).rule? name).isNone).toNat +
      (after.countP fun q => name.same q.1 && isChanged before q) ≤ 1 := by
  cases hafter : (ofNamed after).rule? name with
  | none =>
    have hnone : (after.countP fun q => name.same q.1 && isChanged before q) = 0 := by
      refine List.countP_eq_zero.2 fun q hq hsame => ?_
      rw [rule?_ofNamed_eq_none.1 hafter q hq] at hsame
      exact Bool.false_ne_true hsame
    rw [hnone]
    exact Bool.toNat_le _
  | some rule =>
    have hle : (after.countP fun q => name.same q.1 && isChanged before q) ≤
        after.countP fun q => name.same q.1 && (isMissing before q || isChanged before q) := by
      refine List.countP_mono_left fun q _ hsame => ?_
      rw [Bool.and_eq_true] at hsame ⊢
      exact ⟨hsame.1, by rw [hsame.2, Bool.or_true]⟩
    rw [Option.isNone_some, Bool.and_false, Bool.toNat_false, Nat.zero_add]
    exact Nat.le_trans hle h

end Occurrences

/-- **How often the changes of a table drop and create each name.**  Take two lists of policies of a
table that have names which can be keys, each list with as many policies of one name as it likes.
A name that only the old list has is dropped once.  For a name that the new list has, its policies
are compared one by one with the first old policy of this name: each that is new or differs is
created, and for each that differs the name is dropped before.

So no name is dropped twice and none is created twice exactly if the policies that are created are
under different names. -/
theorem countP_policyChanges {table : Value} {old new : List Policy} {before after : Named}
    (hold : withNames table old = .ok before) (hnew : withNames table new = .ok after) :
    ∃ statements, (policyChanges table old new).outcome = .ok statements ∧
      (∀ name : Value, name.isHashable = true →
        statements.countP (PolicyStatement.drops table name) =
          (((ofNamed before).rule? name).isSome && ((ofNamed after).rule? name).isNone).toNat +
            (after.countP fun q => name.same q.1 && isChanged before q) ∧
        statements.countP (PolicyStatement.creates table name) =
          after.countP fun q => name.same q.1 && (isMissing before q || isChanged before q)) ∧
      ((∀ name : Value, name.isHashable = true →
          statements.countP (PolicyStatement.drops table name) ≤ 1 ∧
          statements.countP (PolicyStatement.creates table name) ≤ 1) ↔
        Different ((after.filter fun q => isMissing before q || isChanged before q).map
          Prod.fst)) := by
  have hbefore := keys_of_withNames hold
  have hafter := keys_of_withNames hnew
  have hdrops : ∀ name : Value, name.isHashable = true →
      ((reconcile before after).statements table).countP (PolicyStatement.drops table name) =
        (((ofNamed before).rule? name).isSome && ((ofNamed after).rule? name).isNone).toNat +
          (after.countP fun q => name.same q.1 && isChanged before q) := by
    intro name hname
    rw [countP_drops_statements, countP_dropped hbefore hafter hname,
      countP_recreated hbefore hafter]
  have hcreates : ∀ name : Value,
      ((reconcile before after).statements table).countP (PolicyStatement.creates table name) =
        after.countP fun q => name.same q.1 && (isMissing before q || isChanged before q) := by
    intro name
    rw [countP_creates_statements, countP_created hbefore hafter]
  refine ⟨(reconcile before after).statements table, ?_,
    fun name hname => ⟨hdrops name hname, hcreates name⟩, ?_⟩
  · rw [outcome_policyChanges, hold, hnew]
    rfl
  · have hkeys : ∀ q ∈ after.filter fun q => isMissing before q || isChanged before q,
        q.1.isHashable = true := fun q hq => hafter q (List.mem_of_mem_filter hq)
    rw [different_iff_countP_le_one hkeys]
    refine forall₂_congr fun name hname => ?_
    rw [hdrops name hname, hcreates name, List.countP_filter]
    exact and_iff_right_of_imp countP_drops_le_one

/-- Policies of the notes, two of them of one name. -/
def editedTwice : List Policy :=
  [policyOf .update "Owners edit" "owner = me()" (.text "edit"),
    policyOf .update "Editors edit" "is_editor()" (.text "edit"),
    policyOf .delete "Owners delete" "owner = me()" (.text "purge")]

/-- Three policies of the same name; the second is the first of those before. -/
def editedThrice : List Policy :=
  [policyOf .update "Everyone edits" "true" (.text "edit"),
    policyOf .update "Owners edit" "owner = me()" (.text "edit"),
    policyOf .update "Editors edit" "is_editor()" (.text "edit")]

/-- The name is dropped and created for two of its policies, and the one that goes is dropped. -/
theorem countP_editedThrice : ∃ statements,
    (policyChanges (.text "notes") editedTwice editedThrice).outcome = .ok statements ∧
    statements.countP (PolicyStatement.drops (.text "notes") (.text "edit")) = 2 ∧
    statements.countP (PolicyStatement.creates (.text "notes") (.text "edit")) = 2 ∧
    statements.countP (PolicyStatement.drops (.text "notes") (.text "purge")) = 1 ∧
    statements.countP (PolicyStatement.creates (.text "notes") (.text "purge")) = 0 := by
  have hbefore : withNames (.text "notes") editedTwice =
      .ok (["edit", "edit", "purge"].map Value.text |>.zip editedTwice) := rfl
  have hafter : withNames (.text "notes") editedThrice =
      .ok (["edit", "edit", "edit"].map Value.text |>.zip editedThrice) := rfl
  obtain ⟨statements, houtcome, hcounts, -⟩ := countP_policyChanges hbefore hafter
  obtain ⟨heditDrops, heditCreates⟩ := hcounts (.text "edit") rfl
  obtain ⟨hpurgeDrops, hpurgeCreates⟩ := hcounts (.text "purge") rfl
  refine ⟨statements, houtcome, ?_, ?_, ?_, ?_⟩
  · rw [heditDrops]
    decide +kernel
  · rw [heditCreates]
    decide +kernel
  · rw [hpurgeDrops]
    decide +kernel
  · rw [hpurgeCreates]
    decide +kernel

/-- Policies whose descriptions share the first three words, and so their name. -/
def sharedWords : List Policy :=
  [policyOf .select "Read own notes" "owner = me()",
    policyOf .select "Read own notes when shared" "is_shared"]

/-- **A name that is dropped and created twice**: that of two policies which both differ from the
old one. -/
theorem policyChanges_shared : ∃ statements,
    (policyChanges (.text "notes") [policyOf .select "Read own notes" "true"]
      sharedWords).outcome = .ok statements ∧
    statements.countP (PolicyStatement.drops (.text "notes")
      (.text "notes_select_read_own_notes")) = 2 ∧
    statements.countP (PolicyStatement.creates (.text "notes")
      (.text "notes_select_read_own_notes")) = 2 :=
  ⟨_, rfl, by decide +kernel, by decide +kernel⟩

end SchemaCompiler.RowSecurity
