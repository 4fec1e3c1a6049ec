import Mathlib
import SchemaCompiler.Proofs.RowSecurity.Repetition

/-!
# The order of changes

Where no name is repeated, the two lists of policies are two maps, and the order in which they are
written is all that is left.  The changes keep it: their drops and creations come in three groups,
each in the order of one of the lists, and another order of this list only puts this group in
another order.

* `goneDrops`, `changeDrops`, `creations` — the three groups;
* `pairwise_groups` — every drop comes before every creation;
* `rule?_perm` — a map does not depend on the order of its policies;
* `perm_goneDrops`, `changeDrops_perm`, … — what another order of the one or the other list does;
* `perm_of_sameMap` — lists that are one map are one list in two orders;
* `policyChanges_arranged` — **the groups of the changes of a table, and what they depend on.**
-/

namespace SchemaCompiler.RowSecurity

open RuleMap Value

/-! ### Three groups -/

/-- The drops of names that only the old list has, in its order. -/
def goneDrops (table : Value) (before after : Named) : List PolicyStatement :=
  (before.filter (isMissing after)).map fun p => .drop table p.1

/-- The drops of names whose rule has changed, in the order of the new list. -/
def changeDrops (table : Value) (before after : Named) : List PolicyStatement :=
  (after.filter (isChanged before)).map fun q => .drop table q.1

/-- The creations of policies that are new or have changed, in the order of the new list. -/
def creations (table : Value) (before after : Named) : List PolicyStatement :=
  (after.filter fun q => isMissing before q || isChanged before q).map fun q =>
    .create table q.1 q.2

section Groups

variable {before after : Named} {table : Value}

theorem statements_eq_groups (hbefore : IsMap before) (hafter : IsMap after) :
    (reconcile before after).statements table =
      goneDrops table before after ++ changeDrops table before after ++
        creations table before after := by
  rw [Changes.statements, dropped_eq hbefore hafter, recreated_eq hbefore.keys hafter.keys,
    created_eq hbefore.keys hafter.keys, List.map_map, List.map_map]
  rfl

theorem isDrop_goneDrops : ∀ s ∈ goneDrops table before after, s.isDrop = true := by
  intro s hs
  obtain ⟨p, -, rfl⟩ := List.mem_map.1 hs
  rfl

theorem isDrop_changeDrops : ∀ s ∈ changeDrops table before after, s.isDrop = true := by
  intro s hs
  obtain ⟨q, -, rfl⟩ := List.mem_map.1 hs
  rfl

theorem isDrop_creations : ∀ s ∈ creations table before after, s.isDrop = false := by
  intro s hs
  obtain ⟨q, -, rfl⟩ := List.mem_map.1 hs
  rfl

/-- **Every drop comes before every creation.** -/
theorem pairwise_groups (table : Value) (before after : Named) :
    (goneDrops table before after ++ changeDrops table before after ++
      creations table before after).Pairwise fun s later =>
        later.isDrop = true → s.isDrop = true := by
  have hdrops : ∀ s ∈ goneDrops table before after ++ changeDrops table before after,
      s.isDrop = true := by
    intro s hs
    exact (List.mem_append.1 hs).elim (isDrop_goneDrops s) (isDrop_changeDrops s)
  refine List.pairwise_append.2 ⟨?_, ?_, ?_⟩
  · exact List.Pairwise.imp_of_mem (fun hs _ _ _ => hdrops _ hs) (List.pairwise_of_forall
      fun _ _ => trivial)
  · refine List.Pairwise.imp_of_mem (fun {s later} _ hlater _ h => ?_)
      (List.pairwise_of_forall fun _ _ => trivial)
    rw [isDrop_creations later hlater] at h
    cases h
  · intro s hs later _ _
    exact hdrops s hs

end Groups

/-! ### Other orders -/

section Orders

variable {policies others before before' after after' : Named} {table name : Value}

theorem IsMap.perm (h : IsMap policies) (hperm : others.Perm policies) : IsMap others := by
  have hkeys : ∀ p ∈ others, p.1.isHashable = true := fun p hp => h.keys p (hperm.mem_iff.1 hp)
  -- Names that can be keys differ from both sides or from none.
  have hboth : (policies.map Prod.fst).Pairwise fun v w =>
      same v w = false ∧ same w v = false :=
    (h.different.symm (List.forall_mem_map.2 h.keys)).and h.different
  have hothers := ((hperm.map Prod.fst).pairwise_iff fun hne => ⟨hne.2, hne.1⟩).2 hboth
  exact ⟨hkeys, hothers.imp fun hne => hne.2⟩

/-- **A map does not depend on the order of its policies.** -/
theorem rule?_perm (h : IsMap policies) (hperm : others.Perm policies)
    (hname : name.isHashable = true) :
    (ofNamed others).rule? name = (ofNamed policies).rule? name := by
  cases hrule : (ofNamed policies).rule? name with
  | none =>
    refine rule?_ofNamed_eq_none.2 fun p hp => ?_
    exact rule?_ofNamed_eq_none.1 hrule p (hperm.mem_iff.1 hp)
  | some rule =>
    obtain ⟨p, hp, hsame, rfl⟩ := exists_mem_of_rule?_ofNamed hrule
    exact rule?_ofNamed_of_mem (h.perm hperm) (hperm.mem_iff.2 hp) hname hsame

theorem isMissing_perm (h : IsMap policies) (hperm : others.Perm policies) {p : Value × Policy}
    (hp : p.1.isHashable = true) : isMissing others p = isMissing policies p := by
  rw [isMissing, isMissing, rule?_perm h hperm hp]

theorem isChanged_perm (h : IsMap policies) (hperm : others.Perm policies) {p : Value × Policy}
    (hp : p.1.isHashable = true) : isChanged others p = isChanged policies p := by
  rw [isChanged, isChanged, rule?_perm h hperm hp]

/-- Another order of the old list puts the drops of what goes in another order … -/
theorem perm_goneDrops (hperm : before'.Perm before) (table : Value) (after : Named) :
    (goneDrops table before' after).Perm (goneDrops table before after) :=
  (hperm.filter _).map _

/-- … and leaves the drops of what has changed … -/
theorem changeDrops_perm (hbefore : IsMap before) (hafter : IsMap after)
    (hperm : before'.Perm before) :
    changeDrops table before' after = changeDrops table before after := by
  refine congrArg (List.map _) (List.filter_congr fun q hq => ?_)
  exact isChanged_perm hbefore hperm (hafter.keys q hq)

/-- … and the creations as they are. -/
theorem creations_perm (hbefore : IsMap before) (hafter : IsMap after)
    (hperm : before'.Perm before) :
    creations table before' after = creations table before after := by
  refine congrArg (List.map _) (List.filter_congr fun q hq => ?_)
  rw [isMissing_perm hbefore hperm (hafter.keys q hq),
    isChanged_perm hbefore hperm (hafter.keys q hq)]

/-- Another order of the new list leaves the drops of what goes as they are … -/
theorem goneDrops_perm (hbefore : IsMap before) (hafter : IsMap after)
    (hperm : after'.Perm after) :
    goneDrops table before after' = goneDrops table before after := by
  refine congrArg (List.map _) (List.filter_congr fun p hp => ?_)
  exact isMissing_perm hafter hperm (hbefore.keys p hp)

/-- … and puts the drops of what has changed … -/
theorem perm_changeDrops (hperm : after'.Perm after) (table : Value) (before : Named) :
    (changeDrops table before after').Perm (changeDrops table before after) :=
  (hperm.filter _).map _

/-- … and the creations in another order. -/
theorem perm_creations (hperm : after'.Perm after) (table : Value) (before : Named) :
    (creations table before after').Perm (creations table before after) :=
  (hperm.filter _).map _

/-- Policies in another order have their names in this order. -/
theorem withNames_perm {old old' : List Policy} (h : withNames table old = .ok before)
    (hperm : old'.Perm old) :
    ∃ before', withNames table old' = .ok before' ∧ before'.Perm before := by
  obtain ⟨before', hall, hperm'⟩ := List.perm_comp_forall₂ hperm (mapM_eq_ok.1 h)
  exact ⟨before', mapM_eq_ok.2 hall, hperm'⟩

end Orders

/-! ### Maps -/

section Maps

variable {policies others : Named} {table : Value}

/-- Two lists of policies with names have the same policy under each name. -/
def SameMap (policies others : Named) : Prop :=
  ∀ name : Value, name.isHashable = true → Named.find? name policies = Named.find? name others

theorem IsMap.find?_of_mem (h : IsMap policies) {p : Value × Policy} (hp : p ∈ policies) :
    Named.find? p.1 policies = some p.2 := by
  have hkey := h.keys p hp
  cases hfind : List.find? (fun q : Value × Policy => q.1.same p.1) policies with
  | none => exact absurd (same_refl p.1) (List.find?_eq_none.1 hfind p hp)
  | some q =>
    have hq : q ∈ policies := List.mem_of_find?_eq_some hfind
    have hsame : q.1.same p.1 = true :=
      List.find?_some (p := fun q : Value × Policy => q.1.same p.1) hfind
    rw [Named.find?, hfind,
      h.eq_of_same hq hp hkey (same_symm (h.keys q hq) hsame) (same_refl p.1), Option.map_some]

theorem IsMap.nodup (h : IsMap policies) : policies.Nodup := by
  refine List.Nodup.of_map Prod.fst (h.different.imp ?_)
  rintro v w hne rfl
  rw [same_refl] at hne
  cases hne

/-- Policies of one of two maps that are the same are policies of the other: the name of a policy
is its own. -/
theorem mem_of_sameMap (h : IsMap policies) (hown : ∀ p ∈ policies, policyName table p.2 = .ok p.1)
    (hown' : ∀ p ∈ others, policyName table p.2 = .ok p.1) (hsame : SameMap policies others)
    {p : Value × Policy} (hp : p ∈ policies) : p ∈ others := by
  have hfind := hsame p.1 (h.keys p hp)
  rw [h.find?_of_mem hp, eq_comm, Named.find?, Option.map_eq_some_iff] at hfind
  obtain ⟨q, hq, hpolicy⟩ := hfind
  have hmem : q ∈ others := List.mem_of_find?_eq_some hq
  have hname : q.1 = p.1 := by
    have hqname := hown' q hmem
    rw [hpolicy, hown p hp, Except.ok.injEq] at hqname
    exact hqname.symm
  rw [← show q = p from Prod.ext hname hpolicy]
  exact hmem

/-- One list in two orders is one map … -/
theorem IsMap.sameMap (h : IsMap policies) (hperm : policies.Perm others) :
    SameMap policies others := by
  intro name hname
  induction hperm with
  | nil => rfl
  | cons p _ ih => rw [find?_cons, find?_cons, ih h.tail]
  | swap p q rest =>
    have hne : p.1.same q.1 = false := h.same_head p List.mem_cons_self
    rw [find?_cons, find?_cons, find?_cons, find?_cons]
    cases hp : p.1.same name with
    | false => rfl
    | true =>
      cases hq : q.1.same name with
      | false => rfl
      | true =>
        have hpkey := h.keys p (List.mem_cons_of_mem q List.mem_cons_self)
        rw [same_trans hpkey hp (same_symm (h.keys q List.mem_cons_self) hq)] at hne
        cases hne
  | trans hfirst _ ih ih' => rw [ih h, ih' (h.perm hfirst.symm)]

/-- … and **lists that are one map are one list in two orders.** -/
theorem perm_of_sameMap (h : IsMap policies) (h' : IsMap others)
    (hown : ∀ p ∈ policies, policyName table p.2 = .ok p.1)
    (hown' : ∀ p ∈ others, policyName table p.2 = .ok p.1) (hsame : SameMap policies others) :
    policies.Perm others := by
  refine (List.perm_ext_iff_of_nodup h.nodup h'.nodup).2 fun p => ⟨?_, ?_⟩
  · exact mem_of_sameMap h hown hown' hsame
  · exact mem_of_sameMap h' hown' hown fun name hname => (hsame name hname).symm

end Maps

/-- **The order of the changes of a table.**  Take two lists of policies of a table that have names
which can be keys, with no name repeated in either list.  The changes are the drops of names that
only the old list has, in its order, then the drops of names whose rule has changed, then the
creations, both in the order of the new list; so every drop comes before every creation.  In SQL
they are a text for each of these, which says what it does.

The old list in another order gives the first group in this order and leaves the others as they are;
the new list in another order leaves the first group as it is and gives the others in this order.
Any two lists with the same policies under the same names come to the same statements in some
order. -/
theorem policyChanges_arranged {table : Value} {old new : List Policy} {before after : Named}
    (hold : withNames table old = .ok before) (hnew : withNames table new = .ok after)
    (hbefore : Different (before.map Prod.fst)) (hafter : Different (after.map Prod.fst)) :
    Yields table old new (goneDrops table before after ++ changeDrops table before after ++
      creations table before after) ∧
    ((goneDrops table before after ++ changeDrops table before after ++
      creations table before after).Pairwise fun s later =>
        later.isDrop = true → s.isDrop = true) ∧
    (∀ old' : List Policy, old'.Perm old → ∃ before', withNames table old' = .ok before' ∧
      Yields table old' new (goneDrops table before' after ++ changeDrops table before after ++
        creations table before after) ∧
      (goneDrops table before' after).Perm (goneDrops table before after)) ∧
    (∀ new' : List Policy, new'.Perm new → ∃ after', withNames table new' = .ok after' ∧
      Yields table old new' (goneDrops table before after ++ changeDrops table before after' ++
        creations table before after') ∧
      (changeDrops table before after').Perm (changeDrops table before after) ∧
      (creations table before after').Perm (creations table before after)) ∧
    ∀ old' new' before' after', withNames table old' = .ok before' →
      withNames table new' = .ok after' → Different (before'.map Prod.fst) →
      Different (after'.map Prod.fst) → SameMap before' before → SameMap after' after →
      ∃ statements, Yields table old' new' statements ∧
        statements.Perm (goneDrops table before after ++ changeDrops table before after ++
          creations table before after) := by
  have hbeforeMap := isMap_of_withNames hold hbefore
  have hafterMap := isMap_of_withNames hnew hafter
  have hyields : ∀ {old' new' before' after'}, withNames table old' = .ok before' →
      withNames table new' = .ok after' → IsMap before' → IsMap after' →
      Yields table old' new' (goneDrops table before' after' ++
        changeDrops table before' after' ++ creations table before' after') := by
    intro old' new' before' after' hold' hnew' hbefore' hafter'
    refine yields_of_policyChanges ?_
    rw [outcome_policyChanges, hold', hnew', ← statements_eq_groups hbefore' hafter']
    rfl
  refine ⟨hyields hold hnew hbeforeMap hafterMap, pairwise_groups table before after, ?_, ?_, ?_⟩
  · intro old' hperm
    obtain ⟨before', hold', hperm'⟩ := withNames_perm hold hperm
    refine ⟨before', hold', ?_, perm_goneDrops hperm' table after⟩
    rw [← changeDrops_perm hbeforeMap hafterMap hperm',
      ← creations_perm hbeforeMap hafterMap hperm']
    exact hyields hold' hnew (hbeforeMap.perm hperm') hafterMap
  · intro new' hperm
    obtain ⟨after', hnew', hperm'⟩ := withNames_perm hnew hperm
    refine ⟨after', hnew', ?_, perm_changeDrops hperm' table before,
      perm_creations hperm' table before⟩
    rw [← goneDrops_perm hbeforeMap hafterMap hperm']
    exact hyields hold hnew' hbeforeMap (hafterMap.perm hperm')
  · intro old' new' before' after' hold' hnew' hbefore' hafter' hsameBefore hsameAfter
    have hbeforeMap' := isMap_of_withNames hold' hbefore'
    have hafterMap' := isMap_of_withNames hnew' hafter'
    have hpermBefore : before'.Perm before := perm_of_sameMap hbeforeMap' hbeforeMap
      (fun p hp => (named_of_withNames hold' p hp).2) (fun p hp => (named_of_withNames hold p hp).2)
      hsameBefore
    have hpermAfter : after'.Perm after := perm_of_sameMap hafterMap' hafterMap
      (fun p hp => (named_of_withNames hnew' p hp).2) (fun p hp => (named_of_withNames hnew p hp).2)
      hsameAfter
    refine ⟨_, hyields hold' hnew' hbeforeMap' hafterMap', ?_⟩
    rw [changeDrops_perm hbeforeMap hafterMap' hpermBefore,
      creations_perm hbeforeMap hafterMap' hpermBefore,
      goneDrops_perm hbeforeMap' hafterMap hpermAfter]
    exact ((perm_goneDrops hpermBefore table after).append
      (perm_changeDrops hpermAfter table before)).append (perm_creations hpermAfter table before)

/-- The same four statements are there when the old policies of the notes are read backwards and
their new ones from the second on. -/
theorem policyChanges_notesTurned : ∃ statements turned,
    Yields (.text "notes") ownedNotes editedNotes statements ∧
    Yields (.text "notes") ownedNotes.reverse (editedNotes.rotate 1) turned ∧
    turned.Perm statements := by
  have hbefore : withNames (.text "notes") ownedNotes =
      .ok (["read", "edit", "purge"].map Value.text |>.zip ownedNotes) := rfl
  have hafter : withNames (.text "notes") editedNotes =
      .ok (["write", "edit", "read"].map Value.text |>.zip editedNotes) := rfl
  have hdifferent : Different (["read", "edit", "purge"].map Value.text |>.zip ownedNotes
      |>.map Prod.fst) := by
    simp [Different, ownedNotes, ← Bool.not_eq_true, same_text_left]
  have hdifferent' : Different (["write", "edit", "read"].map Value.text |>.zip editedNotes
      |>.map Prod.fst) := by
    simp [Different, editedNotes, ← Bool.not_eq_true, same_text_left]
  obtain ⟨hyields, -, -, -, hmaps⟩ := policyChanges_arranged hbefore hafter hdifferent hdifferent'
  obtain ⟨before', hbefore', hperm⟩ := withNames_perm hbefore ownedNotes.reverse_perm
  obtain ⟨after', hafter', hperm'⟩ := withNames_perm hafter (editedNotes.rotate_perm 1)
  have hmap := isMap_of_withNames hbefore hdifferent
  have hmap' := isMap_of_withNames hafter hdifferent'
  obtain ⟨turned, hturned, hsame⟩ := hmaps _ _ before' after' hbefore' hafter'
    (hmap.perm hperm).different (hmap'.perm hperm').different
    ((hmap.perm hperm).sameMap hperm) ((hmap'.perm hperm').sameMap hperm')
  exact ⟨_, turned, hyields, hturned, hsame⟩

end SchemaCompiler.RowSecurity
