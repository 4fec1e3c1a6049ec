import Mathlib
import SchemaCompiler.Proofs.Migration.Layout
import SchemaCompiler.Proofs.RowSecurity.FirstOccurrence
import SchemaCompiler.Proofs.RowSecurity.Reconciliation
import SchemaCompiler.Proofs.Schema.Distinct

/-!
# Changes from nothing and to nothing

A schema is compiled by one part of the program and compared with its next version by another.
Here both are asked about the same policies: those of a schema that had none before, or is to have
none after.

* `entriesFor` — the policies of a table with their names;
* `CompiledAlike` — the block for the policies of a table consists of what creates them;
* `eraseDupsBy_entriesFor` — repeated names are repeated within one table;
* `schemaChanges_nothing` — **from nothing all policies are created as the migration creates them,
  to nothing each name is dropped once**, unless a name cannot be a key;
* `schemaChanges_keyless` — a schema that compiles, although a name in it cannot be a key.
-/

namespace SchemaCompiler.RowSecurity

open Text (joinWith)
open Database Value

/-! ### The policies of a table -/

/-- The policies of a table with the names they are known by. -/
def entriesFor (t : Table) : List Entry :=
  match tableEntries t with
  | .ok entries => entries
  | .error _ => []

/-- What creates an entry, in SQL. -/
def Entry.text (e : Entry) : String := (Entry.statement e).text

/-- The statement that drops an entry. -/
def Entry.removal (e : Entry) : PolicyStatement := .drop e.1 e.2.1

/-- Whether an entry has the table and the name of an earlier one. -/
def repeatsPlace (later earlier : Entry) : Bool :=
  earlier.1.same later.1 && earlier.2.1.same later.2.1

/-- **The policies of a table, created and compiled**: each has a name, what creates it is the
statement under this name, and the migration has all these statements in one block, which follows
the table and its row level security. -/
structure CompiledAlike (t : Table) : Prop where
  named : tableEntries t = .ok (entriesFor t)
  created : t.policies.mapM (createPolicy t.name) =
    .ok ((entriesFor t).map Entry.text)
  block : t.policies ≠ [] → ∃ blocks, renderTexts t.statements = .ok blocks ∧
    blocks[1 + t.rlsEnabled.toNat]? =
      some (joinWith "\n" ((entriesFor t).map Entry.text))

/-- What creates a policy is what creates its entry. -/
theorem createPolicies_eq (t : Table) : t.policies.mapM (createPolicy t.name) =
    (tableEntries t).map (List.map Entry.text) := by
  rw [tableEntries, ← mapM_map]
  refine congrArg (t.policies.mapM ·) (funext fun p => ?_)
  rw [createPolicy]
  cases policyName t.name p with
  | error fault => rfl
  | ok name => rfl

section Table

variable {t : Table}

theorem entriesFor_eq {entries : List Entry} (h : tableEntries t = .ok entries) :
    entriesFor t = entries := by
  rw [entriesFor, h]

/-- A table whose blocks can be written is compiled as its policies are created. -/
theorem compiledAlike_of_renderTexts {blocks : List String}
    (h : renderTexts t.statements = .ok blocks) : CompiledAlike t := by
  by_cases hpolicies : t.policies = []
  · have hnamed : tableEntries t = .ok [] := by
      rw [tableEntries, hpolicies]
      rfl
    refine ⟨?_, ?_, fun hne => absurd hpolicies hne⟩
    · rw [entriesFor_eq hnamed, hnamed]
    · rw [entriesFor_eq hnamed, hpolicies]
      rfl
  · obtain ⟨text, hplace, hrender⟩ := stands_of_getElem? h (Table.statements_policies hpolicies)
    have hblock : createPolicies t = .ok text := by
      rw [← Statement.outcome_renderPolicies]
      exact hrender
    obtain ⟨texts, htexts, hjoin⟩ := bind_eq_ok.1 hblock
    obtain ⟨entries, hentries, hstatements⟩ := map_eq_ok.1 ((createPolicies_eq t).symm.trans htexts)
    obtain rfl := entriesFor_eq hentries
    rw [← Except.ok.inj hjoin, ← hstatements] at hplace
    refine ⟨hentries, ?_, fun _ => ⟨blocks, h, hplace⟩⟩
    rw [htexts, hstatements]

/-- The entries of a table are filed under its name. -/
theorem table_of_mem_entriesFor (h : tableEntries t = .ok (entriesFor t)) {e : Entry}
    (he : e ∈ entriesFor t) : e.1 = t.name := by
  obtain ⟨p, -, hp⟩ := exists_item_of_mem h he
  obtain ⟨name, -, hentry⟩ := bind_eq_ok.1 hp
  rw [← Except.ok.inj hentry]

/-- Policies whose names can be keys can be matched by them. -/
theorem withNames_of_keys (h : tableEntries t = .ok (entriesFor t))
    (hkeys : ∀ e ∈ entriesFor t, e.2.1.isHashable = true) :
    withNames t.name t.policies = .ok ((entriesFor t).map Prod.snd) := by
  have hall := mapM_eq_ok.1 h
  rw [withNames, mapM_eq_ok, List.forall₂_map_right_iff]
  refine List.forall₂_iff_get.2 ⟨hall.length_eq, ?_⟩
  intro i hi hi'
  have hkey := hkeys _ (List.get_mem (entriesFor t) ⟨i, hi'⟩)
  obtain ⟨name, hname, hentry⟩ := bind_eq_ok.1 (hall.get hi hi')
  rw [← Except.ok.inj hentry] at hkey ⊢
  rw [hname, ok_bind, if_pos hkey]
  rfl

/-- A name that cannot be a key stops the matching. -/
theorem withNames_of_keyless (h : tableEntries t = .ok (entriesFor t))
    (hkey : ∃ e ∈ entriesFor t, e.2.1.isHashable = false) :
    withNames t.name t.policies = .error (.misuse .wrongType) := by
  refine mapM_eq_error ?_ ?_
  · intro p hp
    obtain ⟨e, -, he⟩ := exists_result_of_mem h hp
    obtain ⟨name, hname, -⟩ := bind_eq_ok.1 he
    rw [hname, ok_bind]
    cases hhash : name.isHashable with
    | true => exact Or.inl ⟨_, rfl⟩
    | false => exact Or.inr rfl
  · obtain ⟨e, he, hkey⟩ := hkey
    obtain ⟨p, hp, hentry⟩ := exists_item_of_mem h he
    obtain ⟨name, hname, hentry⟩ := bind_eq_ok.1 hentry
    cases hentry
    refine ⟨p, hp, ?_⟩
    rw [hname, ok_bind, if_neg (by rw [hkey]; exact Bool.false_ne_true)]

/-- The names of a table with its name are its entries. -/
theorem entriesOf_entriesFor (h : tableEntries t = .ok (entriesFor t)) :
    entriesOf t.name ((entriesFor t).map Prod.snd) = entriesFor t := by
  rw [entriesOf, List.map_map]
  refine (List.map_congr_left ?_).trans (List.map_id _)
  intro e he
  rw [Function.comp_apply, ← table_of_mem_entriesFor h he, id]

/-- Names that are repeated in a table are repeated among its entries. -/
theorem entriesOf_eraseDupsBy (table : Value) (named : Named) :
    (entriesOf table named).eraseDupsBy repeatsPlace =
      entriesOf table (named.eraseDupsBy repeatsName) := by
  refine eraseDupsBy_map ?_ named
  intro earlier later
  rw [repeatsPlace, same_refl, Bool.true_and, repeatsName]

end Table

/-! ### One list is empty -/

/-- From nothing every policy is created. -/
theorem reconcile_nil_left (table : Value) (named : Named) :
    (reconcile [] named).statements table = (entriesOf table named).map Entry.statement := by
  have hrecreated : (reconcile [] named).recreated = [] := by
    simp [reconcile, Named.firsts, Named.find?]
  have hcreated : (reconcile [] named).created = named := by
    simp [reconcile, Named.firsts, Named.find?]
  rw [statements_eq, hrecreated, hcreated]
  rfl

/-- To nothing every name is dropped. -/
theorem reconcile_nil_right (table : Value) (named : Named) :
    (reconcile named []).statements table = (entriesOf table named.firsts).map Entry.removal := by
  have hdropped : (reconcile named []).dropped = named.firsts.map Prod.fst := by
    simp [reconcile, Named.find?]
  rw [statements_eq, hdropped, entriesOf, List.map_map]
  simp [reconcile, entriesOf, Entry.removal, Function.comp_def]

/-- What is changed from nothing, table by table. -/
theorem outcome_schemaChanges_nil_left (s : Schema) : (schemaChanges {} s).outcome =
    (s.tables.mapM fun t => (policyChanges t.name [] t.policies).outcome).map List.flatten := by
  simp only [schemaChanges, Traced.outcome_bind, Traced.outcome_each, Traced.outcome_pure]
  have htables : (s.tables.mapM fun t => (policyChanges t.name
      (((Schema.table? {} t.name).map Table.policies).getD []) t.policies).outcome) =
      s.tables.mapM fun t => (policyChanges t.name [] t.policies).outcome := rfl
  rw [htables]
  cases s.tables.mapM fun t => (policyChanges t.name [] t.policies).outcome with
  | error fault => rfl
  | ok parts => exact congrArg Except.ok (List.append_nil _)

/-- What is changed to nothing, table by table. -/
theorem outcome_schemaChanges_nil_right (s : Schema) : (schemaChanges s {}).outcome =
    (s.tables.mapM fun t => (policyChanges t.name t.policies []).outcome).map List.flatten := by
  have hall : (s.tables.filter fun t => (Schema.table? {} t.name).isNone) = s.tables :=
    List.filter_eq_self.2 fun t _ => rfl
  simp only [schemaChanges, Traced.outcome_bind, Traced.outcome_each, Traced.outcome_pure, hall]
  show (s.tables.mapM fun t => (policyChanges t.name t.policies []).outcome) >>= _ = _
  cases s.tables.mapM fun t => (policyChanges t.name t.policies []).outcome with
  | error fault => rfl
  | ok parts => rfl

section Tables

variable {t : Table}

theorem policyChanges_nil_left (h : tableEntries t = .ok (entriesFor t))
    (hkeys : ∀ e ∈ entriesFor t, e.2.1.isHashable = true) :
    (policyChanges t.name [] t.policies).outcome = .ok ((entriesFor t).map Entry.statement) := by
  rw [outcome_policyChanges, withNames_of_keys h hkeys]
  show Except.ok ((reconcile [] ((entriesFor t).map Prod.snd)).statements t.name) = _
  rw [reconcile_nil_left, entriesOf_entriesFor h]

theorem policyChanges_nil_right (h : tableEntries t = .ok (entriesFor t))
    (hkeys : ∀ e ∈ entriesFor t, e.2.1.isHashable = true) :
    (policyChanges t.name t.policies []).outcome =
      .ok (((entriesFor t).eraseDupsBy repeatsPlace).map Entry.removal) := by
  have hnames : ∀ p ∈ (entriesFor t).map Prod.snd, p.1.isHashable = true :=
    List.forall_mem_map.2 hkeys
  rw [outcome_policyChanges, withNames_of_keys h hkeys]
  show Except.ok ((reconcile ((entriesFor t).map Prod.snd) []).statements t.name) = _
  rw [reconcile_nil_right, firsts_eq_eraseDupsBy hnames, ← entriesOf_eraseDupsBy,
    entriesOf_entriesFor h]

/-- A name that cannot be a key stops the comparison with nothing. -/
theorem policyChanges_keyless (h : tableEntries t = .ok (entriesFor t))
    (hkey : ∃ e ∈ entriesFor t, e.2.1.isHashable = false) :
    (policyChanges t.name [] t.policies).outcome = .error (.misuse .wrongType) ∧
      (policyChanges t.name t.policies []).outcome = .error (.misuse .wrongType) := by
  rw [outcome_policyChanges, outcome_policyChanges, withNames_of_keyless h hkey]
  exact ⟨rfl, rfl⟩

/-- Nothing else stops it. -/
theorem policyChanges_cases (h : tableEntries t = .ok (entriesFor t)) :
    ((∃ statements, (policyChanges t.name [] t.policies).outcome = .ok statements) ∨
      (policyChanges t.name [] t.policies).outcome = .error (.misuse .wrongType)) ∧
    ((∃ statements, (policyChanges t.name t.policies []).outcome = .ok statements) ∨
      (policyChanges t.name t.policies []).outcome = .error (.misuse .wrongType)) := by
  by_cases hkeys : ∀ e ∈ entriesFor t, e.2.1.isHashable = true
  · exact ⟨Or.inl ⟨_, policyChanges_nil_left h hkeys⟩, Or.inl ⟨_, policyChanges_nil_right h hkeys⟩⟩
  · have hkeyless : ∃ e ∈ entriesFor t, e.2.1.isHashable = false := by
      simpa using hkeys
    obtain ⟨hleft, hright⟩ := policyChanges_keyless h hkeyless
    exact ⟨Or.inr hleft, Or.inr hright⟩

/-- **Repeated names are repeated within one table**, where the tables have different names. -/
theorem eraseDupsBy_entriesFor {tables : List Table}
    (hnamed : ∀ t ∈ tables, tableEntries t = .ok (entriesFor t))
    (hdifferent : (tables.map Table.name).Pairwise fun v w => v.same w = false) :
    (tables.flatMap entriesFor).eraseDupsBy repeatsPlace =
      tables.flatMap fun t => (entriesFor t).eraseDupsBy repeatsPlace := by
  induction tables with
  | nil => rfl
  | cons t tables ih =>
    rw [List.forall_mem_cons] at hnamed
    rw [List.map_cons, List.pairwise_cons] at hdifferent
    rw [List.flatMap_cons, List.flatMap_cons, eraseDupsBy_append, ih hnamed.2 hdifferent.2]
    intro e he later hlater
    obtain ⟨t', ht', hlater⟩ := List.mem_flatMap.1 hlater
    rw [repeatsPlace, table_of_mem_entriesFor hnamed.1 he,
      table_of_mem_entriesFor (hnamed.2 t' ht') hlater,
      hdifferent.1 t'.name (List.mem_map_of_mem ht'), Bool.false_and]

end Tables

/-- A schema that compiles is compiled as its policies are created. -/
theorem compiledAlike_of_compile {s : Schema} {texts : List String}
    (h : (compile [s]).outcome = .ok texts) : ∀ t ∈ s.tables, CompiledAlike t := by
  intro t ht
  have hobject : SchemaObject.table t ∈ [s].flatMap Schema.objects := by
    simp [Schema.objects, ht]
  obtain ⟨before, after, hobjects⟩ := List.append_of_mem hobject
  obtain ⟨_, blocks, _, -, -, hblocks, -⟩ := exists_blocks_of_objects h hobjects
  exact compiledAlike_of_renderTexts hblocks

/-- **Compiling and comparing with nothing agree.**  Take a schema that compiles.  For each table
the migration has one block, which joins what creates its policies one by one.

If all names of policies can be keys, the changes from nothing are what creates all policies, table
by table and policy by policy; the changes to nothing drop each name of each table once, in the
order of the first policies of these names, and do nothing else.  In SQL each is a text that drops
this name from this table.

If a name cannot be a key, there are no changes in either direction. -/
theorem schemaChanges_nothing {s : Schema} {texts : List String} (hs : s.checked = .ok s)
    (h : (compile [s]).outcome = .ok texts) :
    (∀ t ∈ s.tables, CompiledAlike t) ∧
    ((∀ e ∈ s.tables.flatMap entriesFor, e.2.1.isHashable = true) →
      (schemaChanges {} s).outcome = .ok ((s.tables.flatMap entriesFor).map Entry.statement) ∧
      (schemaChangeTexts {} s).outcome =
        (s.tables.mapM fun t : Table => t.policies.mapM (createPolicy t.name)).map List.flatten ∧
      (schemaChanges s {}).outcome =
        .ok (((s.tables.flatMap entriesFor).eraseDupsBy repeatsPlace).map Entry.removal) ∧
      (schemaChangeTexts s {}).outcome =
        .ok (((s.tables.flatMap entriesFor).eraseDupsBy repeatsPlace).map fun e =>
          "DROP POLICY IF EXISTS " ++ e.2.1.toText ++ " ON " ++ e.1.toText ++ ";")) ∧
    ((∃ e ∈ s.tables.flatMap entriesFor, e.2.1.isHashable = false) →
      (schemaChanges {} s).outcome = .error (.misuse .wrongType) ∧
      (schemaChanges s {}).outcome = .error (.misuse .wrongType)) := by
  have halike := compiledAlike_of_compile h
  have hnamed : ∀ t ∈ s.tables, tableEntries t = .ok (entriesFor t) := fun t ht =>
    (halike t ht).named
  refine ⟨halike, ?_, ?_⟩
  · intro hkeys
    have htable : ∀ t ∈ s.tables, ∀ e ∈ entriesFor t, e.2.1.isHashable = true :=
      fun t ht e he => hkeys e (List.mem_flatMap.2 ⟨t, ht, he⟩)
    have hcreated : (schemaChanges {} s).outcome =
        .ok ((s.tables.flatMap entriesFor).map Entry.statement) := by
      rw [outcome_schemaChanges_nil_left,
        mapM_eq_ok_map fun t ht => policyChanges_nil_left (hnamed t ht) (htable t ht),
        List.map_flatMap, List.flatMap_def]
      rfl
    have hdropped : (schemaChanges s {}).outcome =
        .ok (((s.tables.flatMap entriesFor).eraseDupsBy repeatsPlace).map Entry.removal) := by
      obtain ⟨htables, hdifferent, -⟩ := Schema.checked_eq_ok_iff.1 hs
      rw [outcome_schemaChanges_nil_right,
        mapM_eq_ok_map fun t ht => policyChanges_nil_right (hnamed t ht) (htable t ht),
        eraseDupsBy_entriesFor hnamed (hdifferent.symm (List.forall_mem_map.2 htables)),
        List.map_flatMap, List.flatMap_def]
      rfl
    refine ⟨hcreated, ?_, hdropped, ?_⟩
    · rw [(denotes_schemaChanges hcreated).1, mapM_eq_ok_map fun t ht => (halike t ht).created,
        List.map_map, List.map_flatMap, List.flatMap_def]
      rfl
    · rw [(denotes_schemaChanges hdropped).1, List.map_map]
      rfl
  · intro hkeyless
    obtain ⟨e, he, hkey⟩ := hkeyless
    obtain ⟨t, ht, he⟩ := List.mem_flatMap.1 he
    obtain ⟨hleft, hright⟩ := policyChanges_keyless (hnamed t ht) ⟨e, he, hkey⟩
    constructor
    · rw [outcome_schemaChanges_nil_left, mapM_eq_error ?_ ⟨t, ht, hleft⟩]
      · rfl
      · exact fun t ht => (policyChanges_cases (hnamed t ht)).1
    · rw [outcome_schemaChanges_nil_right, mapM_eq_error ?_ ⟨t, ht, hright⟩]
      · rfl
      · exact fun t ht => (policyChanges_cases (hnamed t ht)).2

/-- A schema in which policies of one table have one name, and another table has it as well. -/
def editors : Schema where
  tables := [
    { name := .text "notes"
      policies := [policyOf .update "Owners edit" "owner = me()" (.text "edit"),
        policyOf .select "Anyone may read" "true" (.text "read"),
        policyOf .update "Editors edit" "is_editor()" (.text "edit")] },
    { name := .text "tags"
      policies := [policyOf .update "Editors edit" "is_editor()" (.text "edit")] }]

/-- Its four policies are created as they are compiled, and its three names are dropped. -/
theorem schemaChanges_editors : ∃ texts, (compile [editors]).outcome = .ok texts ∧
    (∀ t ∈ editors.tables, CompiledAlike t) ∧
    (schemaChanges {} editors).outcome =
      .ok ((editors.tables.flatMap entriesFor).map Entry.statement) ∧
    (editors.tables.flatMap entriesFor).length = 4 ∧
    (schemaChangeTexts editors {}).outcome =
      .ok ["DROP POLICY IF EXISTS edit ON notes;", "DROP POLICY IF EXISTS read ON notes;",
        "DROP POLICY IF EXISTS edit ON tags;"] := by
  have hok : ∃ texts, (compile [editors]).outcome = .ok texts := by
    rw [outcome_compile]
    exact ⟨_, rfl⟩
  obtain ⟨texts, htexts⟩ := hok
  have hchecked : editors.checked = .ok editors :=
    (checked_eq_ok_iff (by simp [editors, IsText])).2 (by simp [editors])
  have hkeys : ((editors.tables.flatMap entriesFor).all fun e => e.2.1.isHashable) = true := by
    decide +kernel
  obtain ⟨halike, hnothing, -⟩ := schemaChanges_nothing hchecked htexts
  obtain ⟨hcreated, -, -, hdropped⟩ := hnothing (List.all_eq_true.1 hkeys)
  refine ⟨texts, htexts, halike, hcreated, rfl, ?_⟩
  rw [hdropped]
  decide +kernel

/-- A schema with a policy whose name is a list, and so cannot be a key. -/
def keyless : Schema where
  tables := [
    { name := .text "notes"
      policies := [policyOf .select "Read" "true" (.list [.text "p"])] }]

/-- It compiles, but its policies cannot be compared with none. -/
theorem schemaChanges_keyless : keyless.checked = .ok keyless ∧
    (∃ texts, (compile [keyless]).outcome = .ok texts) ∧
    (schemaChanges {} keyless).outcome = .error (.misuse .wrongType) ∧
    (schemaChanges keyless {}).outcome = .error (.misuse .wrongType) := by
  refine ⟨rfl, ?_, rfl, rfl⟩
  rw [outcome_compile]
  exact ⟨_, rfl⟩

end SchemaCompiler.RowSecurity
