import Mathlib.Data.Option.Basic
import SchemaCompiler.Proofs.RowSecurity.Database

/-!
# Reconciliation converges

Running the changes of policies on the database of the old schema leads to the database of the new
one.  The argument goes table by table: dropping comes first, so that every name is free by the
time a policy is created under it.

* `run_reconcile` — the changes of one table bring its policies from the old list to the new one,
  and touch no other table;
* `run_moves` — the same for a list of different tables, by induction;
* `outcome_schemaChanges` — the changes of a schema are those of such a list;
* `run_schemaChanges` — **reconciliation converges**: no creation fails, and the database at the
  end is that of the new schema.
-/

namespace SchemaCompiler.RowSecurity

open Database

/-! ### Policies by name -/

theorem Keyed.same_iff {policies : Named} (h : Keyed policies) {p : Value × Policy}
    (hp : p ∈ policies) {name : Value} : p.1.same name = true ↔ p.1 = name :=
  (h.texts p hp).same_iff

theorem Keyed.ne_of_mem {p q : Value × Policy} {policies : Named} (h : Keyed (p :: policies))
    (hq : q ∈ policies) : p.1 ≠ q.1 := fun heq =>
  (List.nodup_cons.1 h.nodup).1 (heq ▸ List.mem_map_of_mem hq)

theorem find?_eq_none_iff {policies : Named} (h : Keyed policies) {name : Value} :
    Named.find? name policies = none ↔ ∀ p ∈ policies, p.1 ≠ name := by
  rw [Named.find?, Option.map_eq_none_iff, List.find?_eq_none]
  constructor
  · intro hnone p hp heq
    exact hnone p hp ((h.same_iff hp).2 heq)
  · intro hne p hp hsame
    exact hne p hp ((h.same_iff hp).1 hsame)

theorem find?_cons (name : Value) (p : Value × Policy) (policies : Named) :
    Named.find? name (p :: policies) =
      if p.1.same name then some p.2 else Named.find? name policies := by
  rw [Named.find?, List.find?_cons]
  cases p.1.same name <;> rfl

/-- The policy found under a name is the one that has it. -/
theorem find?_eq_some_iff {policies : Named} (h : Keyed policies) {name : Value} {p : Policy} :
    Named.find? name policies = some p ↔ (name, p) ∈ policies := by
  induction policies with
  | nil => simp [Named.find?]
  | cons q policies ih =>
    obtain ⟨qname, qpolicy⟩ := q
    have htext : qname.IsText := h.texts _ List.mem_cons_self
    rw [find?_cons, List.mem_cons, Prod.mk.injEq]
    by_cases hname : qname = name
    · subst hname
      rw [if_pos (htext.same_iff.2 rfl), Option.some.injEq]
      constructor
      · intro heq
        exact Or.inl ⟨rfl, heq.symm⟩
      · rintro (⟨-, heq⟩ | hmem)
        · exact heq.symm
        · exact absurd rfl (h.ne_of_mem (q := (qname, p)) hmem)
    · rw [if_neg (fun hsame => hname (htext.same_iff.1 hsame)), ih h.tail]
      exact ⟨Or.inr, fun hor => hor.resolve_left fun heq => hname heq.1.symm⟩

/-- Where no name is repeated, every policy is the first of its name. -/
theorem firsts_eq_self {policies : Named} (h : Keyed policies) : policies.firsts = policies := by
  induction policies with
  | nil => rfl
  | cons p policies ih =>
    obtain ⟨name, policy⟩ := p
    have htext : name.IsText := h.texts _ List.mem_cons_self
    rw [Named.firsts, ih h.tail, List.filter_eq_self.2]
    intro q hq
    have hne : name.same q.1 ≠ true := fun hsame =>
      h.ne_of_mem hq (htext.same_iff.1 hsame)
    simpa using hne

/-! ### The changes of one table -/

section Table

variable {old new : Named}

theorem mem_dropped_iff (hold : Keyed old) (hnew : Keyed new) {name : Value} :
    name ∈ (reconcile old new).dropped ↔
      (∃ p, (name, p) ∈ old) ∧ ∀ q ∈ new, q.1 ≠ name := by
  simp only [reconcile, firsts_eq_self hold, List.mem_map, List.mem_filter,
    Option.isNone_iff_eq_none, find?_eq_none_iff hnew]
  constructor
  · rintro ⟨p, ⟨hp, hfree⟩, rfl⟩
    exact ⟨⟨p.2, hp⟩, hfree⟩
  · rintro ⟨⟨p, hp⟩, hfree⟩
    exact ⟨(name, p), ⟨hp, hfree⟩, rfl⟩

theorem mem_recreated_iff (hold : Keyed old) {name : Value} :
    name ∈ (reconcile old new).recreated ↔
      ∃ q before, (name, q) ∈ new ∧ (name, before) ∈ old ∧ differ before q = true := by
  simp only [reconcile, firsts_eq_self hold, List.mem_map, List.mem_filter]
  constructor
  · rintro ⟨q, ⟨hq, hdiff⟩, rfl⟩
    split at hdiff
    next before hbefore =>
      exact ⟨q.2, before, hq, (find?_eq_some_iff hold).1 hbefore, hdiff⟩
    next => exact absurd hdiff (by decide)
  · rintro ⟨q, before, hq, hbefore, hdiff⟩
    refine ⟨(name, q), ⟨hq, ?_⟩, rfl⟩
    rw [(find?_eq_some_iff hold).2 hbefore]
    exact hdiff

theorem mem_created_iff (hold : Keyed old) {q : Value × Policy} :
    q ∈ (reconcile old new).created ↔
      q ∈ new ∧ ∀ before, (q.1, before) ∈ old → differ before q.2 = true := by
  simp only [reconcile, firsts_eq_self hold, List.mem_filter, and_congr_right_iff]
  intro _
  cases hfind : Named.find? q.1 old with
  | none =>
    simp only [true_iff]
    intro before hbefore
    exact absurd rfl ((find?_eq_none_iff hold).1 hfind (q.1, before) hbefore)
  | some before =>
    constructor
    · intro hdiff before' hbefore'
      rw [(find?_eq_some_iff hold).2 hbefore', Option.some.injEq] at hfind
      exact hfind ▸ hdiff
    · intro hall
      exact hall before ((find?_eq_some_iff hold).1 hfind)

/-- Only names of the old list are dropped. -/
theorem mem_old_of_dropped (hold : Keyed old) (hnew : Keyed new) {name : Value}
    (h : name ∈ (reconcile old new).dropped ++ (reconcile old new).recreated) :
    ∃ p, (name, p) ∈ old := by
  rcases List.mem_append.1 h with h | h
  · exact ((mem_dropped_iff hold hnew).1 h).1
  · obtain ⟨_, before, -, hbefore, -⟩ := (mem_recreated_iff hold).1 h
    exact ⟨before, hbefore⟩

/-- What is not created was there before under the same rule, and nothing is done to its name. -/
theorem kept_of_not_created (hold : Keyed old) (hnew : Keyed new) {q : Value × Policy}
    (hq : q ∈ new) (h : q ∉ (reconcile old new).created) :
    ∃ before, (q.1, before) ∈ old ∧ differ before q.2 = false ∧
      q.1 ∉ (reconcile old new).dropped ++ (reconcile old new).recreated ∧
      q.1 ∉ (reconcile old new).created.map Prod.fst := by
  have hkept : ¬∀ before, (q.1, before) ∈ old → differ before q.2 = true := fun hall =>
    h ((mem_created_iff hold).2 ⟨hq, hall⟩)
  push Not at hkept
  obtain ⟨before, hbefore, hdiff⟩ := hkept
  refine ⟨before, hbefore, by simpa using hdiff, fun hmem => ?_, fun hmem => ?_⟩
  · rcases List.mem_append.1 hmem with hmem | hmem
    · exact ((mem_dropped_iff hold hnew).1 hmem).2 q hq rfl
    · obtain ⟨q', before', hq', hbefore', hdiff'⟩ := (mem_recreated_iff hold).1 hmem
      rw [hnew.eq_of_mem hq' hq, hold.eq_of_mem hbefore' hbefore] at hdiff'
      exact hdiff hdiff'
  · obtain ⟨q', hq', hname⟩ := List.mem_map.1 hmem
    have hq'new : q' ∈ new := ((mem_created_iff hold).1 hq').1
    have heq : q' = q := List.inj_on_of_nodup_map hnew.nodup hq'new hq hname
    exact h (heq ▸ hq')

theorem statements_eq (table : Value) (c : Changes) :
    c.statements table = (c.dropped ++ c.recreated).map (.drop table) ++
      (entriesOf table c.created).map Entry.statement := by
  rw [Changes.statements, List.map_append, entriesOf, List.map_map]
  rfl

variable {db : Database} {table : Value}

theorem isText_of_dropped (hold : Keyed old) (hnew : Keyed new) :
    ∀ name ∈ (reconcile old new).dropped ++ (reconcile old new).recreated, name.IsText := by
  intro name hname
  obtain ⟨p, hp⟩ := mem_old_of_dropped hold hnew hname
  exact hold.texts _ hp

theorem isText_of_created (hold : Keyed old) (hnew : Keyed new) :
    ∀ name ∈ (reconcile old new).created.map Prod.fst, name.IsText := by
  intro name hname
  obtain ⟨q, hq, rfl⟩ := List.mem_map.1 hname
  exact hnew.texts q ((mem_created_iff hold).1 hq).1

/-- After the drops, the names of the policies to be created are free. -/
theorem free_created (hold : Keyed old) (hnew : Keyed new) (hdb : Holds Eq db table old) :
    (db.without table ((reconcile old new).dropped ++ (reconcile old new).recreated)).Free
      (entriesOf table (reconcile old new).created) := by
  constructor
  · intro e he
    obtain ⟨q, hq, rfl⟩ := List.mem_map.1 he
    obtain ⟨hqnew, hdiff⟩ := (mem_created_iff hold).1 hq
    show db.without table _ (place table q.1) = none
    rw [without]
    split
    · rfl
    · rename_i hkept
      refine hdb.absent _ fun p hp heq => hkept (List.mem_map_of_mem ?_)
      -- A policy of the old list has the name: it differs, so its name was dropped.
      have hpq : p.1 = q.1 := ((hold.texts p hp).toText_inj (hnew.texts q hqnew)).1 heq
      have hbefore : (q.1, p.2) ∈ old := hpq ▸ hp
      refine List.mem_append_right _ ((mem_recreated_iff hold).2 ?_)
      exact ⟨q.2, p.2, hqnew, hbefore, hdiff p.2 hbefore⟩
  · rw [place_entriesOf]
    have hnodup : ((reconcile old new).created.map Prod.fst).Nodup :=
      hnew.nodup.sublist (List.filter_sublist.map Prod.fst)
    refine hnodup.map_on fun name hname name' hname' => ?_
    exact (place_inj (isText_of_created hold hnew name hname)
      (isText_of_created hold hnew name' hname')).1

/-- Rules that nothing distinguishes. -/
def Alike (rule wanted : Rule) : Prop := rule.same wanted = true

/-- **The changes of a table take its policies from the old list to the new one** and leave those
of all other tables alone. -/
theorem run_reconcile (hold : Keyed old) (hnew : Keyed new) (hdb : Holds Eq db table old) :
    ∃ result, db.run ((reconcile old new).statements table) = some result ∧
      Holds Alike result table new ∧ ∀ key, key.1 ≠ table.toText → result key = db key := by
  obtain ⟨result, hrun, hspec⟩ := run_creates (free_created hold hnew hdb)
  have hframe := hspec.frame
  rw [place_entriesOf] at hframe
  refine ⟨result, ?_, ⟨fun q hq => ?_, fun name hname => ?_⟩, fun key hkey => ?_⟩
  · rw [statements_eq, run_append, run_drops, Option.bind_some, hrun]
  · by_cases hcreated : q ∈ (reconcile old new).created
    · exact ⟨_, hspec.present _ (List.mem_map_of_mem hcreated), Rule.same_refl _⟩
    · obtain ⟨before, hbefore, hsame, hkept, hfresh⟩ := kept_of_not_created hold hnew hq hcreated
      obtain ⟨rule, hrule, rfl⟩ := hdb.present _ hbefore
      refine ⟨ruleOf before, ?_, ?_⟩
      · rw [hframe, without_of_notMem, hrule]
        · rwa [place_mem_iff (hnew.texts q hq) (isText_of_dropped hold hnew)]
        · rwa [place_mem_iff (hnew.texts q hq) (isText_of_created hold hnew)]
      · rw [differ_eq] at hsame
        simpa [Alike] using hsame
  · rw [hframe]
    · rw [without]
      split
      · rfl
      · rename_i hkept
        refine hdb.absent name fun p hp heq => hkept ?_
        subst heq
        refine List.mem_map_of_mem (f := place table) (List.mem_append_left _ ?_)
        refine (mem_dropped_iff hold hnew).2 ⟨⟨p.2, hp⟩, fun q hq hqp => ?_⟩
        exact hname q hq (by rw [hqp])
    · rw [List.map_map, List.mem_map]
      rintro ⟨q, hq, heq⟩
      exact hname q ((mem_created_iff hold).1 hq).1 (Prod.mk.inj heq).2
  · have hother : ∀ names : List Value, key ∉ names.map (place table) := by
      intro names hmem
      obtain ⟨name, -, rfl⟩ := List.mem_map.1 hmem
      exact hkey rfl
    rw [hframe key (hother _), without_of_notMem _ (hother _)]

end Table

/-! ### The changes of several tables -/

/-- A table whose policies are to be brought from one list to another. -/
structure Move where
  table : Value
  before : Named
  after : Named

/-- The statements of a move. -/
def Move.statements (m : Move) : List PolicyStatement :=
  (reconcile m.before m.after).statements m.table

theorem Holds.congr {R : Rule → Rule → Prop} {db other : Database} {table : Value}
    {policies : Named} (h : Holds R db table policies)
    (hsame : ∀ key, key.1 = table.toText → other key = db key) : Holds R other table policies := by
  refine ⟨fun p hp => ?_, fun name hname => ?_⟩
  · rw [hsame (place table p.1) rfl]
    exact h.present p hp
  · rw [hsame (table.toText, name) rfl]
    exact h.absent name hname

/-- **Moves of different tables do not disturb each other**: after all of them, each table has the
policies it was to get, and the tables without a move are as before. -/
theorem run_moves {moves : List Move} {db : Database}
    (hkeyed : ∀ m ∈ moves, Keyed m.before ∧ Keyed m.after)
    (hnodup : (moves.map fun m => m.table.toText).Nodup)
    (hdb : ∀ m ∈ moves, Holds Eq db m.table m.before) :
    ∃ result, db.run (moves.flatMap Move.statements) = some result ∧
      (∀ m ∈ moves, Holds Alike result m.table m.after) ∧
      ∀ key, (∀ m ∈ moves, m.table.toText ≠ key.1) → result key = db key := by
  induction moves generalizing db with
  | nil => exact ⟨db, rfl, by simp, fun _ _ => rfl⟩
  | cons m moves ih =>
    rw [List.map_cons, List.nodup_cons] at hnodup
    have hne : ∀ m' ∈ moves, m'.table.toText ≠ m.table.toText := fun m' hm' heq =>
      hnodup.1 (heq ▸ List.mem_map_of_mem (f := fun m => m.table.toText) hm')
    obtain ⟨hbefore, hafter⟩ := hkeyed m List.mem_cons_self
    obtain ⟨next, hrun, hnext, hframe⟩ := run_reconcile hbefore hafter (hdb m List.mem_cons_self)
    have hrest : ∀ m' ∈ moves, Holds Eq next m'.table m'.before := by
      intro m' hm'
      refine (hdb m' (List.mem_cons_of_mem _ hm')).congr fun key hkey => hframe key ?_
      rw [hkey]
      exact hne m' hm'
    obtain ⟨result, hrun', hresult, hframe'⟩ :=
      ih (fun m' hm' => hkeyed m' (List.mem_cons_of_mem _ hm')) hnodup.2 hrest
    refine ⟨result, ?_, fun m' hm' => ?_, fun key hkey => ?_⟩
    · rw [List.flatMap_cons, run_append, Move.statements, hrun, Option.bind_some, hrun']
    · rcases List.mem_cons.1 hm' with rfl | hm'
      · refine hnext.congr fun key hkey => hframe' key fun m'' hm'' => ?_
        rw [hkey]
        exact hne m'' hm''
      · exact hresult m' hm'
    · rw [hframe' key fun m' hm' => hkey m' (List.mem_cons_of_mem _ hm'),
        hframe key (hkey m List.mem_cons_self).symm]

/-! ### The changes of a schema -/

theorem table?_eq_none_iff {s : Schema} {name : Value} (hname : name.IsText) :
    s.table? name = none ↔ ∀ t ∈ s.tables, t.name ≠ name := by
  rw [Schema.table?, List.find?_eq_none]
  constructor
  · intro hnone t ht heq
    exact hnone t ht (hname.equal_iff.2 heq)
  · intro hne t ht hequal
    exact hne t ht (hname.equal_iff.1 hequal)

theorem of_table?_eq_some {s : Schema} {name : Value} {t : Table} (hname : name.IsText)
    (h : s.table? name = some t) : t ∈ s.tables ∧ t.name = name :=
  ⟨List.mem_of_find?_eq_some h,
    hname.equal_iff.1 (List.find?_some (p := fun t : Table => t.name.equal name) h)⟩

/-- The policies of a table under the names they are known by. -/
def namedOf (t : Table) : Named :=
  match withNames t.name t.policies with
  | .ok named => named
  | .error _ => []

/-- The moves from one version of a schema to the next: the tables of the new version in its order,
then those that only the old one has. -/
def movesOf (old new : Schema) : List Move :=
  (new.tables.map fun t => ⟨t.name, ((old.table? t.name).map namedOf).getD [], namedOf t⟩) ++
    (old.tables.filter fun t => (new.table? t.name).isNone).map fun t => ⟨t.name, namedOf t, []⟩

/-- The changes of a schema are its moves, one after the other. -/
theorem outcome_schemaChanges {old new : Schema} (htexts : ∀ t ∈ new.tables, t.name.IsText)
    (hold : ∀ t ∈ old.tables, withNames t.name t.policies = .ok (namedOf t))
    (hnew : ∀ t ∈ new.tables, withNames t.name t.policies = .ok (namedOf t)) :
    (schemaChanges old new).outcome = .ok ((movesOf old new).flatMap Move.statements) := by
  have hkept : ∀ t ∈ new.tables, (policyChanges t.name
      (((old.table? t.name).map Table.policies).getD []) t.policies).outcome =
        .ok (Move.statements ⟨t.name, ((old.table? t.name).map namedOf).getD [], namedOf t⟩) := by
    intro t ht
    rw [outcome_policyChanges, hnew t ht]
    cases hfind : old.table? t.name with
    | none => rfl
    | some t' =>
      obtain ⟨ht', hname⟩ := of_table?_eq_some (htexts t ht) hfind
      have hnamed : withNames t.name t'.policies = .ok (namedOf t') := hname ▸ hold t' ht'
      rw [Option.map_some, Option.getD_some, hnamed]
      rfl
  have hgone : ∀ t ∈ old.tables.filter (fun t => (new.table? t.name).isNone),
      (policyChanges t.name t.policies []).outcome =
        .ok (Move.statements ⟨t.name, namedOf t, []⟩) := by
    intro t ht
    rw [outcome_policyChanges, hold t (List.mem_filter.1 ht).1]
    rfl
  simp only [schemaChanges, Traced.outcome_bind, Traced.outcome_each, Traced.outcome_pure]
  rw [mapM_eq_ok_map hkept, ok_bind, mapM_eq_ok_map hgone, ok_bind, movesOf, List.flatMap_append,
    List.flatMap_map, List.flatMap_map, List.flatMap_def, List.flatMap_def]

theorem namedOf_eq {t : Table} {named : Named} (h : withNames t.name t.policies = .ok named) :
    namedOf t = named := by
  rw [namedOf, h]


/-- Different names that are texts are different texts. -/
theorem nodup_toText {s : Schema} (hnames : NamedByTexts s)
    (hdistinct : (s.tables.map Table.name).Nodup) :
    (s.tables.map fun t => t.name.toText).Nodup := by
  have hmap : (s.tables.map fun t => t.name.toText) =
      (s.tables.map Table.name).map Value.toText := by
    rw [List.map_map]
    rfl
  rw [hmap]
  refine hdistinct.map_on fun name hname name' hname' heq => ?_
  obtain ⟨t, ht, rfl⟩ := List.mem_map.1 hname
  obtain ⟨t', ht', rfl⟩ := List.mem_map.1 hname'
  exact ((hnames.tables t ht).toText_inj (hnames.tables t' ht')).1 heq

section Schemas

variable {old new : Schema}

/-- The moves from one schema to the next are about different tables. -/
theorem nodup_movesOf (holdNames : NamedByTexts old) (hnewNames : NamedByTexts new)
    (hold : (old.tables.map Table.name).Nodup) (hnew : (new.tables.map Table.name).Nodup) :
    ((movesOf old new).map fun m => m.table.toText).Nodup := by
  have hgone : (old.tables.filter fun t => (new.table? t.name).isNone).Sublist old.tables :=
    List.filter_sublist
  rw [movesOf, List.map_append, List.map_map, List.map_map, List.nodup_append]
  refine ⟨nodup_toText hnewNames hnew,
    (nodup_toText holdNames hold).sublist (hgone.map fun t => t.name.toText), ?_⟩
  intro text htext text' htext' heq
  obtain ⟨t, ht, rfl⟩ := List.mem_map.1 htext
  obtain ⟨t', ht', rfl⟩ := List.mem_map.1 htext'
  obtain ⟨ht', hnone⟩ := List.mem_filter.1 ht'
  have hname : t.name = t'.name :=
    ((hnewNames.tables t ht).toText_inj (holdNames.tables t' ht')).1 heq
  exact (table?_eq_none_iff (holdNames.tables t' ht')).1 (Option.isNone_iff_eq_none.1 hnone) t ht
    hname

/-- The tables of a schema are among the moves with the policies they are to have. -/
theorem exists_move_of_mem (old : Schema) {t : Table} (ht : t ∈ new.tables) :
    ∃ m ∈ movesOf old new, m.table = t.name ∧ m.after = namedOf t :=
  ⟨_, List.mem_append_left _ (List.mem_map_of_mem ht), rfl, rfl⟩

/-- The tables that only the old version has are among the moves, and are to have no policies. -/
theorem exists_move_of_gone {t : Table} (ht : t ∈ old.tables) (hgone : new.table? t.name = none) :
    ∃ m ∈ movesOf old new, m.table = t.name ∧ m.after = [] := by
  refine ⟨_, List.mem_append_right _ (List.mem_map_of_mem (List.mem_filter.2 ⟨ht, ?_⟩)), rfl, rfl⟩
  rw [hgone]
  rfl

/-- A move is about a table of one of the versions, and starts from the policies that the old
version has for it. -/
theorem of_mem_movesOf (hnewNames : NamedByTexts new) {m : Move} (hm : m ∈ movesOf old new) :
    (∃ t ∈ new.tables, m.table = t.name ∧ m.after = namedOf t ∧
      ((∃ t' ∈ old.tables, t'.name = t.name ∧ m.before = namedOf t') ∨
        (∀ t' ∈ old.tables, t'.name ≠ t.name) ∧ m.before = [])) ∨
    ∃ t ∈ old.tables, m.table = t.name ∧ m.before = namedOf t ∧ m.after = [] := by
  rcases List.mem_append.1 hm with hm | hm
  · obtain ⟨t, ht, rfl⟩ := List.mem_map.1 hm
    refine Or.inl ⟨t, ht, rfl, rfl, ?_⟩
    cases hfind : old.table? t.name with
    | none => exact Or.inr ⟨(table?_eq_none_iff (hnewNames.tables t ht)).1 hfind, rfl⟩
    | some t' =>
      obtain ⟨ht', hname⟩ := of_table?_eq_some (hnewNames.tables t ht) hfind
      exact Or.inl ⟨t', ht', hname, rfl⟩
  · obtain ⟨t, ht, rfl⟩ := List.mem_map.1 hm
    exact Or.inr ⟨t, (List.mem_filter.1 ht).1, rfl, rfl, rfl⟩

/-- Two databases have policies in the same places, and nothing distinguishes their rules. -/
def Agree (db other : Database) : Prop := ∀ key, Option.Rel Alike (db key) (other key)

theorem eq_of_agree {db other : Database} (h : Agree db other)
    (hplain : ∀ key rule, other key = some rule → rule.IsPlain) : db = other := by
  funext key
  have hkey := h key
  cases hother : other key with
  | none =>
    rw [hother] at hkey
    cases hdb : db key with
    | none => rfl
    | some rule => rw [hdb] at hkey; cases hkey
  | some wanted =>
    rw [hother] at hkey
    cases hdb : db key with
    | none => rw [hdb] at hkey; cases hkey
    | some rule =>
      rw [hdb] at hkey
      cases hkey with
      | some halike => rw [Rule.eq_of_same (hplain key wanted hother) halike]

/-- What is known of a schema whose policies make up a database. -/
structure Created (s : Schema) (db : Database) : Prop where
  names : NamedByTexts s
  distinct : (s.tables.map Table.name).Nodup
  named : ∀ t ∈ s.tables, withNames t.name t.policies = .ok (namedOf t)
  keyed : ∀ t ∈ s.tables, Keyed (namedOf t)
  holds : ∀ t ∈ s.tables, Holds Eq db t.name (namedOf t)
  other : ∀ key, (∀ t ∈ s.tables, t.name.toText ≠ key.1) → db key = none

theorem created_of_installed {s : Schema} {db : Database} (hs : s.checked = .ok s)
    (hnames : NamedByTexts s) (h : installed s = some db) : Created s db := by
  have hdistinct := (checked_eq_ok_iff hnames.tables).1 hs
  obtain ⟨hspec, hother⟩ := installed_spec hnames hdistinct h
  have htable : ∀ t ∈ s.tables, withNames t.name t.policies = .ok (namedOf t) ∧
      Keyed (namedOf t) ∧ Holds Eq db t.name (namedOf t) := by
    intro t ht
    obtain ⟨named, hwith, hspec⟩ := hspec t ht
    rw [namedOf_eq hwith]
    exact ⟨hwith, hspec⟩
  exact ⟨hnames, hdistinct, fun t ht => (htable t ht).1, fun t ht => (htable t ht).2.1,
    fun t ht => (htable t ht).2.2, hother⟩

variable {before after result : Database}

/-- Every move is between lists without repeated names, and starts from what is in the database. -/
theorem movesOf_spec (hold : Created old before) (hnew : Created new after) :
    ∀ m ∈ movesOf old new, (Keyed m.before ∧ Keyed m.after) ∧ Holds Eq before m.table m.before := by
  intro m hm
  rcases of_mem_movesOf hnew.names hm with
    ⟨t, ht, htable, hmafter, ⟨t', ht', hname, hmbefore⟩ | ⟨hnone, hmbefore⟩⟩ |
      ⟨t, ht, htable, hmbefore, hmafter⟩
  · rw [htable, hmafter, hmbefore, ← hname]
    exact ⟨⟨hold.keyed t' ht', hnew.keyed t ht⟩, hold.holds t' ht'⟩
  · rw [htable, hmafter, hmbefore]
    refine ⟨⟨Keyed.nil, hnew.keyed t ht⟩, ⟨by simp, fun name _ => hold.other _ ?_⟩⟩
    intro t' ht' heq
    exact hnone t' ht' (((hold.names.tables t' ht').toText_inj (hnew.names.tables t ht)).1 heq)
  · rw [htable, hmafter, hmbefore]
    exact ⟨⟨hold.keyed t ht, Keyed.nil⟩, hold.holds t ht⟩

/-- What two databases have for a table agrees if both have the same policies for it. -/
theorem rel_of_holds {table : Value} {policies : Named} (hresult : Holds Alike result table policies)
    (hafter : Holds Eq after table policies) (name : String) :
    Option.Rel Alike (result (table.toText, name)) (after (table.toText, name)) := by
  by_cases hname : ∃ p ∈ policies, p.1.toText = name
  · obtain ⟨p, hp, rfl⟩ := hname
    obtain ⟨rule, hrule, halike⟩ := hresult.present p hp
    obtain ⟨wanted, hwanted, rfl⟩ := hafter.present p hp
    rw [show result (table.toText, p.1.toText) = some rule from hrule,
      show after (table.toText, p.1.toText) = some (ruleOf p.2) from hwanted]
    exact .some halike
  · have hfree : ∀ p ∈ policies, p.1.toText ≠ name := fun p hp heq => hname ⟨p, hp, heq⟩
    rw [hresult.absent name hfree, hafter.absent name hfree]
    exact .none

/-- A database agrees with that of the new schema once all moves have been made. -/
theorem agree_of_moved (hold : Created old before) (hnew : Created new after)
    (hresult : ∀ m ∈ movesOf old new, Holds Alike result m.table m.after)
    (hframe : ∀ key, (∀ m ∈ movesOf old new, m.table.toText ≠ key.1) → result key = before key) :
    Agree result after := by
  rintro ⟨table, name⟩
  by_cases hkey : ∃ t ∈ new.tables, t.name.toText = table
  · obtain ⟨t, ht, rfl⟩ := hkey
    obtain ⟨m, hm, htable, hmafter⟩ := exists_move_of_mem old ht
    have hholds := hresult m hm
    rw [htable, hmafter] at hholds
    exact rel_of_holds hholds (hnew.holds t ht) name
  · have hnotNew : ∀ t ∈ new.tables, t.name.toText ≠ table := fun t ht heq => hkey ⟨t, ht, heq⟩
    rw [hnew.other _ hnotNew]
    suffices hnone : result (table, name) = none by rw [hnone]; exact .none
    by_cases hgone : ∃ t ∈ old.tables, t.name.toText = table
    · obtain ⟨t, ht, rfl⟩ := hgone
      have hfind : new.table? t.name = none :=
        (table?_eq_none_iff (hold.names.tables t ht)).2 fun t' ht' heq =>
          hnotNew t' ht' (by rw [heq])
      obtain ⟨m, hm, htable, hmafter⟩ := exists_move_of_gone ht hfind
      have hholds := hresult m hm
      rw [htable, hmafter] at hholds
      exact hholds.absent name (by simp)
    · have hnotOld : ∀ t ∈ old.tables, t.name.toText ≠ table := fun t ht heq => hgone ⟨t, ht, heq⟩
      rw [hframe _ fun m hm => ?_, hold.other _ hnotOld]
      rcases of_mem_movesOf hnew.names hm with ⟨t, ht, htable, -⟩ | ⟨t, ht, htable, -⟩
      · rw [htable]
        exact hnotNew t ht
      · rw [htable]
        exact hnotOld t ht

/-- A move drops only names that its table had policies under. -/
theorem exists_of_mem_drop {m : Move} (hbefore : Keyed m.before) (hafter : Keyed m.after)
    {table name : Value} (h : .drop table name ∈ m.statements) :
    table = m.table ∧ ∃ p, (name, p) ∈ m.before := by
  rw [Move.statements, statements_eq, List.mem_append] at h
  rcases h with h | h
  · obtain ⟨name', hname', heq⟩ := List.mem_map.1 h
    cases heq
    exact ⟨rfl, mem_old_of_dropped hbefore hafter hname'⟩
  · obtain ⟨e, -, heq⟩ := List.mem_map.1 h
    exact absurd heq nofun

/-- **Reconciliation converges.**  Take two schemas whose policies can each be created in an empty
database.  The changes in SQL are the texts of statements, and each says what its statement does.
On the database of the old schema these run to the end: no policy is created under a name that is
taken, and every name dropped is one that had been created.  At the end the database is that of the
new schema: the same names, with rules that nothing distinguishes — equal ones, where the settings
of the new schema are absent, texts or lists of texts. -/
theorem run_schemaChanges (hold : old.checked = .ok old)
    (hnew : new.checked = .ok new) (holdNames : NamedByTexts old) (hnewNames : NamedByTexts new)
    (hbefore : installed old = some before) (hafter : installed new = some after) :
    ∃ statements result, (schemaChanges old new).outcome = .ok statements ∧
      (schemaChangeTexts old new).outcome = .ok (statements.map PolicyStatement.text) ∧
      (∀ s ∈ statements, Denotes s.text s) ∧
      before.run statements = some result ∧ Agree result after ∧
      ((∀ key rule, after key = some rule → rule.IsPlain) → result = after) ∧
      ∀ table name, .drop table name ∈ statements → (before (place table name)).isSome = true := by
  have holdCreated := created_of_installed hold holdNames hbefore
  have hnewCreated := created_of_installed hnew hnewNames hafter
  have hmoves := movesOf_spec holdCreated hnewCreated
  obtain ⟨result, hrun, hresult, hframe⟩ := run_moves (fun m hm => (hmoves m hm).1)
    (nodup_movesOf holdNames hnewNames holdCreated.distinct hnewCreated.distinct)
    fun m hm => (hmoves m hm).2
  have hagree : Agree result after := agree_of_moved holdCreated hnewCreated hresult hframe
  have hstatements :=
    outcome_schemaChanges hnewNames.tables holdCreated.named hnewCreated.named
  obtain ⟨htexts, hdenotes⟩ := denotes_schemaChanges hstatements
  refine ⟨_, result, hstatements, htexts, hdenotes, hrun, hagree, eq_of_agree hagree, ?_⟩
  intro table name hdrop
  obtain ⟨m, hm, hdrop⟩ := List.mem_flatMap.1 hdrop
  obtain ⟨⟨hmbefore, hmafter⟩, hholds⟩ := hmoves m hm
  obtain ⟨rfl, p, hp⟩ := exists_of_mem_drop hmbefore hmafter hdrop
  obtain ⟨rule, hrule, -⟩ := hholds.present _ hp
  rw [hrule]
  rfl

end Schemas

/-- A policy made of texts, with a name of its own or without. -/
def policyOf (action : PolicyAction) (description condition : String) (name : Value := .null) :
    Policy where
  action
  description := .text description
  condition := .text condition
  options := { name }

/-- A schema with policies to be kept, changed and dropped, and with a table to go. -/
def notesBefore : Schema where
  tables := [
    { name := .text "notes"
      policies := [policyOf .select "Anyone may read notes" "true",
        policyOf .update "Owners edit" "owner = me()" (.text "edit"),
        policyOf .delete "Owners delete" "owner = me()"] },
    { name := .text "drafts"
      policies := [policyOf .all "Owners only" "owner = me()"] }]

/-- Its next version, with a new table whose policy has the name of another table's. -/
def notesAfter : Schema where
  tables := [
    { name := .text "tags"
      policies := [policyOf .select "Anyone may read" "true" (.text "edit")] },
    { name := .text "notes"
      policies := [policyOf .insert "Owners write" "owner = me()",
        policyOf .update "Editors edit" "is_editor()" (.text "edit"),
        policyOf .select "Anyone may read notes" "true"] }]

theorem notesBefore_named : NamedByTexts notesBefore where
  tables := by
    simp only [notesBefore, List.forall_mem_cons, List.not_mem_nil]
    exact ⟨⟨_, rfl⟩, ⟨_, rfl⟩, nofun⟩
  policies := by
    simp only [notesBefore, List.forall_mem_cons, List.not_mem_nil]
    exact ⟨⟨nofun, fun _ => ⟨_, rfl⟩, nofun, nofun⟩, ⟨nofun, nofun⟩, nofun⟩

theorem notesAfter_named : NamedByTexts notesAfter where
  tables := by
    simp only [notesAfter, List.forall_mem_cons, List.not_mem_nil]
    exact ⟨⟨_, rfl⟩, ⟨_, rfl⟩, nofun⟩
  policies := by
    simp only [notesAfter, List.forall_mem_cons, List.not_mem_nil]
    exact ⟨⟨fun _ => ⟨_, rfl⟩, nofun⟩, ⟨nofun, fun _ => ⟨_, rfl⟩, nofun, nofun⟩, nofun⟩

/-- The changes from one version of the notes to the next run to the end. -/
theorem run_notesChanges : ∃ before after statements texts result,
    installed notesBefore = some before ∧ installed notesAfter = some after ∧
      (schemaChangeTexts notesBefore notesAfter).outcome = .ok texts ∧
      List.Forall₂ Denotes texts statements ∧
      before.run statements = some result ∧ Agree result after := by
  obtain ⟨before, hbefore⟩ := Option.isSome_iff_exists.1
    (show (installed notesBefore).isSome = true by decide +kernel)
  obtain ⟨after, hafter⟩ := Option.isSome_iff_exists.1
    (show (installed notesAfter).isSome = true by decide +kernel)
  obtain ⟨statements, result, -, htexts, hdenotes, hrun, hagree, -⟩ :=
    run_schemaChanges ((checked_eq_ok_iff notesBefore_named.tables).2 (by simp [notesBefore]))
      ((checked_eq_ok_iff notesAfter_named.tables).2 (by simp [notesAfter]))
      notesBefore_named notesAfter_named hbefore hafter
  refine ⟨before, after, statements, _, result, hbefore, hafter, htexts, ?_, hrun, hagree⟩
  exact List.forall₂_map_left_iff.2 (List.forall₂_same.2 hdenotes)

end SchemaCompiler.RowSecurity
