import Mathlib.Data.List.Nodup
import SchemaCompiler.Proofs.Outcome
import SchemaCompiler.Proofs.Value.Equality
import SchemaCompiler.RowSecurity.Changes

/-!
# The policies of a database

What policy statements do to a database, and what is in it after the policies of a schema have
been created.

* `Rule` — what a policy allows and to whom: its action, its condition and its options;
* `Database` — the rules of a database, by table and policy name;
* `Database.exec`, `Database.run` — one statement, and several in order; a policy cannot be created
  under a name that is taken, and dropping one that is not there does nothing;
* `Denotes` — what a text of SQL does to the policies of a database, word by word;
* `installed` — the database with the policies of a schema, created in an empty one;
* `run_drops`, `run_creates`, `of_run_creates` — what a list of drops and a list of creations do;
* `installed_spec` — **what is in the database of a schema**: the policies of its tables, and
  nothing else.
-/

namespace SchemaCompiler.RowSecurity

/-- What a policy allows and to whom. -/
structure Rule where
  action : PolicyAction
  condition : Value
  options : PolicyOptions

/-- The rule of a policy. -/
def ruleOf (p : Policy) : Rule := ⟨p.action, p.condition, p.options⟩

/-- Whether nothing distinguishes two rules. -/
def Rule.same (r q : Rule) : Bool :=
  r.action == q.action && r.condition.same q.condition && r.options.name.same q.options.name &&
    r.options.roles.same q.options.roles && r.options.withCheck.same q.options.withCheck

/-- Policies differ when their rules do; their descriptions do not matter. -/
theorem differ_eq (old new : Policy) : differ old new = !(ruleOf old).same (ruleOf new) := rfl

theorem Rule.same_refl (r : Rule) : r.same r = true := by
  simp only [Rule.same, beq_self_eq_true, Value.same_refl, Bool.and_self]

/-- A rule in its usual form: all that it says is absent, a text or a list of texts. -/
structure Rule.IsPlain (r : Rule) : Prop where
  condition : r.condition.IsPlain
  name : r.options.name.IsPlain
  roles : r.options.roles.IsPlain
  withCheck : r.options.withCheck.IsPlain

theorem Rule.eq_of_same {r q : Rule} (hq : q.IsPlain) (h : r.same q = true) : r = q := by
  obtain ⟨action, condition, name, roles, withCheck⟩ := r
  obtain ⟨action', condition', name', roles', withCheck'⟩ := q
  simp only [Rule.same, Bool.and_eq_true, beq_iff_eq] at h
  obtain ⟨⟨⟨⟨haction, hcondition⟩, hname⟩, hroles⟩, hcheck⟩ := h
  rw [haction, Value.eq_of_same hq.condition hcondition, Value.eq_of_same hq.name hname,
    Value.eq_of_same hq.roles hroles, Value.eq_of_same hq.withCheck hcheck]

/-! ### Statements and what they do -/

/-- The policies of a database: the rule under each table and policy name. -/
def Database := String × String → Option Rule

namespace Database

/-- The database without policies. -/
def empty : Database := fun _ => none

/-- The place of a policy: the texts of its table and its name, as statements write them. -/
def place (table name : Value) : String × String := (table.toText, name.toText)

theorem place_inj {table name name' : Value} (h : name.IsText) (h' : name'.IsText) :
    place table name = place table name' ↔ name = name' := by
  rw [place, place, Prod.mk.injEq, h.toText_inj h']
  exact and_iff_right rfl

/-- The database with other contents at one place. -/
def put (db : Database) (at_ : String × String) (rule : Option Rule) : Database :=
  fun key => if key = at_ then rule else db key

/-- A statement; none if it fails. -/
def exec (db : Database) : PolicyStatement → Option Database
  | .create table name p =>
    if (db (place table name)).isSome then none
    else some (db.put (place table name) (some (ruleOf p)))
  | .drop table name => some (db.put (place table name) none)

/-- Statements in order; none if one of them fails. -/
def run (db : Database) (statements : List PolicyStatement) : Option Database :=
  statements.foldlM exec db

@[simp] theorem run_nil (db : Database) : db.run [] = some db := rfl

theorem run_cons (db : Database) (s : PolicyStatement) (rest : List PolicyStatement) :
    db.run (s :: rest) = (db.exec s).bind fun next => next.run rest := rfl

theorem run_append (db : Database) (first second : List PolicyStatement) :
    db.run (first ++ second) = (db.run first).bind fun next => next.run second :=
  List.foldlM_append

@[simp] theorem put_self (db : Database) (key : String × String) (rule : Option Rule) :
    db.put key rule key = rule := if_pos rfl

theorem put_of_ne (db : Database) {key at_ : String × String} (rule : Option Rule)
    (h : key ≠ at_) : db.put at_ rule key = db key := if_neg h

end Database

/-! ### Statements in SQL -/

/-- What `createPolicy` writes for a policy creates it under the name it is known by. -/
theorem createPolicy_eq_ok_iff {table : Value} {p : Policy} {text : String} :
    createPolicy table p = .ok text ↔ ∃ name, policyName table p = .ok name ∧
      (PolicyStatement.create table name p).text = text := by
  rw [createPolicy, bind_eq_ok]
  simp only [pure_eq_ok, Except.ok.injEq]
  rfl

/-- What a text of SQL does to the policies of a database.  A drop is told by its words alone.  A
creation has the name and the table in its first line; the whole is what `createPolicy` writes for
the policy, which is known by this name. -/
inductive Denotes : String → PolicyStatement → Prop where
  | drop (table name : Value) :
    Denotes ("DROP POLICY IF EXISTS " ++ name.toText ++ " ON " ++ table.toText ++ ";")
      (.drop table name)
  | create {table name : Value} {p : Policy} (clauses : String)
    (hname : policyName table p = .ok name)
    (htext : createPolicy table p = .ok
      ("CREATE POLICY " ++ name.toText ++ " ON " ++ table.toText ++ "\n" ++ clauses)) :
    Denotes ("CREATE POLICY " ++ name.toText ++ " ON " ++ table.toText ++ "\n" ++ clauses)
      (.create table name p)

theorem denotes_drop (table name : Value) :
    Denotes (dropPolicy table name) (.drop table name) := .drop table name

/-- What creates a policy has its name and its table in the first line. -/
theorem exists_clauses (table name : Value) (p : Policy) : ∃ clauses,
    createNamedPolicy table name p =
      "CREATE POLICY " ++ name.toText ++ " ON " ++ table.toText ++ "\n" ++ clauses := by
  unfold createNamedPolicy
  rcases policyClauses p with ⟨visible, check⟩
  simp only [String.append_assoc, String.append_right_inj]
  exact ⟨_, rfl⟩

/-- The text that creates a policy under the name it is known by says so. -/
theorem denotes_create {table name : Value} {p : Policy} (h : policyName table p = .ok name) :
    Denotes (createNamedPolicy table name p) (.create table name p) := by
  obtain ⟨clauses, hclauses⟩ := exists_clauses table name p
  rw [hclauses]
  exact .create clauses h (createPolicy_eq_ok_iff.2 ⟨name, h, hclauses⟩)

/-- Policies that are matched by name have names that can be keys, and these are their own. -/
theorem named_of_withNames {table : Value} {policies : List Policy} {named : Named}
    (h : withNames table policies = .ok named) :
    ∀ p ∈ named, p.1.isHashable = true ∧ policyName table p.2 = .ok p.1 := by
  intro p hp
  obtain ⟨policy, -, hpolicy⟩ := exists_item_of_mem h hp
  obtain ⟨name, hown, hname⟩ := bind_eq_ok.1 hpolicy
  split at hname
  next hkey =>
    rw [← Except.ok.inj hname]
    exact ⟨hkey, hown⟩
  next => cases hname

/-- The statements for changes say what they do, if what is created is created under its own
name. -/
theorem denotes_statements (table : Value) {c : Changes}
    (h : ∀ p ∈ c.created, policyName table p.2 = .ok p.1) :
    ∀ s ∈ c.statements table, Denotes s.text s := by
  intro s hs
  rw [Changes.statements, ← List.map_append] at hs
  rcases List.mem_append.1 hs with hs | hs
  · obtain ⟨name, -, rfl⟩ := List.mem_map.1 hs
    exact denotes_drop table name
  · obtain ⟨p, hp, rfl⟩ := List.mem_map.1 hs
    exact denotes_create (h p hp)

theorem outcome_policyChanges (table : Value) (old new : List Policy) :
    (policyChanges table old new).outcome = do
      let before ← withNames table old
      let after ← withNames table new
      return (reconcile before after).statements table := by
  simp only [policyChanges, Traced.outcome_bind, Traced.outcome_lift, Traced.outcome_note,
    Traced.outcome_pure]
  rfl

/-- The changes of the policies of a table are these statements, and in SQL each of them says what
it does. -/
structure Yields (table : Value) (old new : List Policy) (statements : List PolicyStatement) :
    Prop where
  outcome : (policyChanges table old new).outcome = .ok statements
  texts : (policyChangeTexts table old new).outcome = .ok (statements.map PolicyStatement.text)
  denotes : ∀ s ∈ statements, Denotes s.text s

/-- **The changes of the policies of a table say what they do.** -/
theorem yields_of_policyChanges {table : Value} {old new : List Policy}
    {statements : List PolicyStatement}
    (h : (policyChanges table old new).outcome = .ok statements) :
    Yields table old new statements := by
  refine ⟨h, ?_, ?_⟩
  · rw [policyChangeTexts, Traced.outcome_bind, h]
    rfl
  · rw [outcome_policyChanges] at h
    obtain ⟨before, -, h⟩ := bind_eq_ok.1 h
    obtain ⟨after, hafter, h⟩ := bind_eq_ok.1 h
    rw [← Except.ok.inj h]
    exact denotes_statements table fun p hp =>
      (named_of_withNames hafter p (List.mem_filter.1 hp).1).2

/-- **The changes of the policies of a schema say what they do.** -/
theorem denotes_schemaChanges {old new : Schema} {statements : List PolicyStatement}
    (h : (schemaChanges old new).outcome = .ok statements) :
    (schemaChangeTexts old new).outcome = .ok (statements.map PolicyStatement.text) ∧
      ∀ s ∈ statements, Denotes s.text s := by
  constructor
  · rw [schemaChangeTexts, Traced.outcome_bind, h]
    rfl
  · simp only [schemaChanges, Traced.outcome_bind, Traced.outcome_each, Traced.outcome_pure] at h
    obtain ⟨kept, hkept, h⟩ := bind_eq_ok.1 h
    obtain ⟨gone, hgone, h⟩ := bind_eq_ok.1 h
    intro s hs
    rw [← Except.ok.inj h, List.mem_append] at hs
    rcases hs with hs | hs
    · obtain ⟨list, hlist, hs⟩ := List.mem_flatten.1 hs
      obtain ⟨t, -, ht⟩ := exists_item_of_mem hkept hlist
      exact (yields_of_policyChanges ht).denotes s hs
    · obtain ⟨list, hlist, hs⟩ := List.mem_flatten.1 hs
      obtain ⟨t, -, ht⟩ := exists_item_of_mem hgone hlist
      exact (yields_of_policyChanges ht).denotes s hs

namespace Database

/-! ### Lists of drops -/

/-- The database without the policies of a table that have one of the names. -/
def without (db : Database) (table : Value) (names : List Value) : Database :=
  fun key => if key ∈ names.map (place table) then none else db key

theorem without_of_mem (db : Database) {table : Value} {names : List Value}
    {key : String × String} (h : key ∈ names.map (place table)) :
    db.without table names key = none := if_pos h

/-- Among names that are texts, places tell as much as the names. -/
theorem place_mem_iff {table name : Value} {names : List Value} (hname : name.IsText)
    (hnames : ∀ n ∈ names, n.IsText) :
    place table name ∈ names.map (place table) ↔ name ∈ names := by
  rw [List.mem_map]
  constructor
  · rintro ⟨n, hn, heq⟩
    exact (place_inj (hnames n hn) hname).1 heq ▸ hn
  · intro hn
    exact ⟨name, hn, rfl⟩

theorem without_of_notMem (db : Database) {table : Value} {names : List Value}
    {key : String × String} (h : key ∉ names.map (place table)) :
    db.without table names key = db key := if_neg h

/-- **Drops cannot fail**, and what they leave is the database without their names. -/
theorem run_drops (db : Database) (table : Value) (names : List Value) :
    db.run (names.map (.drop table)) = some (db.without table names) := by
  induction names generalizing db with
  | nil => rfl
  | cons name names ih =>
    rw [List.map_cons, run_cons, exec, Option.bind_some, ih, Option.some.injEq]
    funext key
    have hmem : key ∈ (name :: names).map (place table) ↔
        key = place table name ∨ key ∈ names.map (place table) := by
      rw [List.map_cons, List.mem_cons]
    by_cases hrest : key ∈ names.map (place table)
    · rw [without_of_mem _ hrest, without_of_mem _ (hmem.2 (Or.inr hrest))]
    · rw [without_of_notMem _ hrest]
      by_cases hkey : key = place table name
      · rw [without_of_mem _ (hmem.2 (Or.inl hkey)), hkey, put_self]
      · rw [put_of_ne _ _ hkey, without_of_notMem]
        exact fun h => (hmem.1 h).elim hkey hrest

/-! ### Lists of creations -/

/-- A policy to be created: its table, its name and the policy itself. -/
abbrev Entry := Value × Value × Policy

/-- The place of an entry. -/
def Entry.place (e : Entry) : String × String := Database.place e.1 e.2.1

/-- The statement that creates an entry. -/
def Entry.statement (e : Entry) : PolicyStatement := .create e.1 e.2.1 e.2.2

/-- The result of creating entries in a database: they are in it, and all else is as before. -/
structure Extends (db : Database) (entries : List Entry) (result : Database) : Prop where
  present : ∀ e ∈ entries, result e.place = some (ruleOf e.2.2)
  frame : ∀ key, key ∉ entries.map Entry.place → result key = db key

/-- The entries can be created in a database: their places are free and different. -/
structure Free (db : Database) (entries : List Entry) : Prop where
  free : ∀ e ∈ entries, db e.place = none
  nodup : (entries.map Entry.place).Nodup

theorem Free.tail {db : Database} {e : Entry} {entries : List Entry}
    (h : db.Free (e :: entries)) : (db.put e.place (some (ruleOf e.2.2))).Free entries := by
  have hnodup := h.nodup
  rw [List.map_cons, List.nodup_cons] at hnodup
  refine ⟨fun e' he' => ?_, hnodup.2⟩
  rw [put_of_ne]
  · exact h.free e' (List.mem_cons_of_mem _ he')
  · intro heq
    exact hnodup.1 (heq ▸ List.mem_map_of_mem he')

theorem Extends.cons {db result : Database} {e : Entry} {entries : List Entry}
    (hnew : e.place ∉ entries.map Entry.place)
    (h : (db.put e.place (some (ruleOf e.2.2))).Extends entries result) :
    db.Extends (e :: entries) result := by
  refine ⟨fun e' he' => ?_, fun key hkey => ?_⟩
  · rcases List.mem_cons.1 he' with rfl | he'
    · rw [h.frame _ hnew, put_self]
    · exact h.present e' he'
  · rw [List.map_cons, List.mem_cons, not_or] at hkey
    rw [h.frame key hkey.2, put_of_ne _ _ hkey.1]

theorem exec_statement_of_free {db : Database} {e : Entry} (h : db e.place = none) :
    db.exec e.statement = some (db.put e.place (some (ruleOf e.2.2))) := by
  show (if (db e.place).isSome then none else _) = _
  rw [h]
  rfl

/-- Entries whose places are free and different can be created one after the other. -/
theorem run_creates {db : Database} {entries : List Entry} (h : db.Free entries) :
    ∃ result, db.run (entries.map Entry.statement) = some result ∧ db.Extends entries result := by
  induction entries generalizing db with
  | nil => exact ⟨db, rfl, by simp, fun _ _ => rfl⟩
  | cons e entries ih =>
    obtain ⟨result, hrun, hspec⟩ := ih h.tail
    have hnew : e.place ∉ entries.map Entry.place := (List.nodup_cons.1 h.nodup).1
    refine ⟨result, ?_, hspec.cons hnew⟩
    rw [List.map_cons, run_cons, exec_statement_of_free (h.free e List.mem_cons_self),
      Option.bind_some, hrun]

/-- Creations that did not fail found their places free and different. -/
theorem of_run_creates {db result : Database} {entries : List Entry}
    (h : db.run (entries.map Entry.statement) = some result) :
    db.Free entries ∧ db.Extends entries result := by
  have hfree : db.Free entries := by
    induction entries generalizing db with
    | nil => exact ⟨by simp, by simp⟩
    | cons e entries ih =>
      rw [List.map_cons, run_cons] at h
      cases hplace : db e.place with
      | some rule =>
        have hfail : db.exec e.statement = none := by
          show (if (db e.place).isSome then none else _) = _
          rw [hplace]
          rfl
        rw [hfail, Option.bind_none] at h
        exact absurd h (by simp)
      | none =>
        rw [exec_statement_of_free hplace, Option.bind_some] at h
        have hrest := ih h
        -- The place of `e` is taken from here on, so none of the others has it.
        have hne : ∀ e' ∈ entries, e'.place ≠ e.place := by
          intro e' he' heq
          have htaken := hrest.free e' he'
          rw [heq, put_self] at htaken
          exact absurd htaken (by simp)
        refine ⟨fun e' he' => ?_, ?_⟩
        · rcases List.mem_cons.1 he' with rfl | he'
          · exact hplace
          · rw [← hrest.free e' he', put_of_ne _ _ (hne e' he')]
        · rw [List.map_cons, List.nodup_cons]
          refine ⟨fun hmem => ?_, hrest.nodup⟩
          obtain ⟨e', he', heq⟩ := List.mem_map.1 hmem
          exact hne e' he' heq
  obtain ⟨result', hrun, hspec⟩ := run_creates hfree
  rw [hrun, Option.some.injEq] at h
  exact ⟨hfree, h ▸ hspec⟩

end Database

/-! ### The database of a schema -/

open Database

/-- The entries of a table: its policies, each under the name it is known by. -/
def tableEntries (t : Table) : Except Fault (List Entry) :=
  t.policies.mapM fun p => do return (t.name, ← policyName t.name p, p)

/-- The entries of all tables of a schema. -/
def schemaEntries (s : Schema) : Except Fault (List Entry) := do
  return (← s.tables.mapM tableEntries).flatten

/-- The database with all policies of a schema, created in an empty one under their names; none if
a policy has no name or a name is taken. -/
def installed (s : Schema) : Option Database :=
  match schemaEntries s with
  | .ok entries => Database.empty.run (entries.map Entry.statement)
  | .error _ => none

/-- The tables of a schema, and the policies that are named explicitly, are named by texts. -/
structure NamedByTexts (s : Schema) : Prop where
  tables : ∀ t ∈ s.tables, t.name.IsText
  policies : ∀ t ∈ s.tables, ∀ p ∈ t.policies,
    p.options.name.isTrue = true → p.options.name.IsText

/-- A schema whose tables are named by texts is accepted if no two of them have one name. -/
theorem checked_eq_ok_iff {s : Schema} (htexts : ∀ t ∈ s.tables, t.name.IsText) :
    s.checked = .ok s ↔ (s.tables.map Table.name).Nodup := by
  have hmap : (s.tables.map fun t => .ok t.name) =
      (s.tables.map Table.name).map (Except.ok (ε := Fault)) := by
    rw [List.map_map]
    rfl
  have hnames : ∀ v ∈ s.tables.map Table.name, v.IsText := List.forall_mem_map.2 htexts
  constructor
  · intro h
    obtain ⟨_, hcheck, -⟩ := bind_eq_ok.1 h
    rw [Schema.checkTables, hmap] at hcheck
    exact Value.nodup_of_checkDistinct hcheck
  · intro h
    refine bind_eq_ok.2 ⟨(), ?_, rfl⟩
    rw [Schema.checkTables, hmap, Value.checkDistinct_eq_ok_iff]
    refine ⟨fun v hv => (hnames v hv).isHashable, by simp, ?_⟩
    refine h.imp_of_mem fun {v w} _ hw hne => ?_
    rw [← Bool.not_eq_true, (hnames w hw).same_iff]
    exact fun heq => hne heq.symm

/-- Named policies whose names are texts, no two of them equal. -/
structure Keyed (policies : Named) : Prop where
  texts : ∀ p ∈ policies, p.1.IsText
  nodup : (policies.map Prod.fst).Nodup

theorem Keyed.nil : Keyed [] := ⟨by simp, List.nodup_nil⟩

theorem Keyed.tail {p : Value × Policy} {policies : Named} (h : Keyed (p :: policies)) :
    Keyed policies :=
  ⟨fun q hq => h.texts q (List.mem_cons_of_mem _ hq), (List.nodup_cons.1 h.nodup).2⟩

/-- One name, one policy. -/
theorem Keyed.eq_of_mem {policies : Named} (h : Keyed policies) {name : Value} {p q : Policy}
    (hp : (name, p) ∈ policies) (hq : (name, q) ∈ policies) : p = q :=
  (Prod.mk.inj (List.inj_on_of_nodup_map h.nodup hp hq rfl)).2

/-- The entries of named policies of a table. -/
def entriesOf (table : Value) (policies : Named) : List Entry :=
  policies.map fun p => (table, p.1, p.2)

theorem place_entriesOf (table : Value) (policies : Named) :
    (entriesOf table policies).map Entry.place = (policies.map Prod.fst).map (place table) := by
  rw [entriesOf, List.map_map, List.map_map]
  rfl

/-- The policies of a table in a database are the given ones, up to the relation `R` between the
rules that are there and those that should be. -/
structure Holds (R : Rule → Rule → Prop) (db : Database) (table : Value) (policies : Named) :
    Prop where
  present : ∀ p ∈ policies, ∃ rule, db (place table p.1) = some rule ∧ R rule (ruleOf p.2)
  absent : ∀ name, (∀ p ∈ policies, p.1.toText ≠ name) → db (table.toText, name) = none

theorem policyName_isText {table name : Value} {p : Policy}
    (hexplicit : p.options.name.isTrue = true → p.options.name.IsText)
    (h : policyName table p = .ok name) : name.IsText := by
  unfold policyName at h
  split at h
  · rename_i hname
    rw [Except.ok.injEq] at h
    exact h ▸ hexplicit hname
  · obtain ⟨text, -, rfl⟩ := map_eq_ok.1 h
    exact ⟨text, rfl⟩

/-- Policies that can be created under their names can also be matched by them. -/
theorem withNames_of_entries {table : Value} {policies : List Policy} {entries : List Entry}
    (hexplicit : ∀ p ∈ policies, p.options.name.isTrue = true → p.options.name.IsText)
    (h : policies.mapM (fun p => do return (table, ← policyName table p, p)) = .ok entries) :
    ∃ named : Named, withNames table policies = .ok named ∧ (∀ p ∈ named, p.1.IsText) ∧
      entries = entriesOf table named := by
  have hall := mapM_eq_ok.1 h
  clear h
  induction hall with
  | nil => exact ⟨[], rfl, by simp, rfl⟩
  | @cons p e policies entries hentry hrest ih =>
    obtain ⟨named, hnamed, htexts, hentries⟩ :=
      ih fun q hq => hexplicit q (List.mem_cons_of_mem _ hq)
    obtain ⟨name, hname, he⟩ := bind_eq_ok.1 hentry
    rw [pure_eq_ok, Except.ok.injEq] at he
    have htext : name.IsText := policyName_isText (hexplicit p List.mem_cons_self) hname
    refine ⟨(name, p) :: named, ?_, ?_, ?_⟩
    · rw [withNames, List.mapM_cons]
      refine bind_eq_ok.2 ⟨(name, p), ?_, bind_eq_ok.2 ⟨named, hnamed, rfl⟩⟩
      rw [hname, ok_bind, if_pos htext.isHashable, pure_eq_ok]
    · intro q hq
      rcases List.mem_cons.1 hq with rfl | hq
      · exact htext
      · exact htexts q hq
    · rw [hentries, ← he]
      rfl

/-- **What is in the database of a schema**: for each of its tables the policies of the table under
their names, and nothing under any other table. -/
theorem installed_spec {s : Schema} {db : Database} (hnames : NamedByTexts s)
    (hdistinct : (s.tables.map Table.name).Nodup) (h : installed s = some db) :
    (∀ t ∈ s.tables, ∃ named, withNames t.name t.policies = .ok named ∧ Keyed named ∧
      Holds Eq db t.name named) ∧
    ∀ key, (∀ t ∈ s.tables, t.name.toText ≠ key.1) → db key = none := by
  unfold installed at h
  split at h
  next entries hentries =>
    obtain ⟨lists, hlists, hflat⟩ := bind_eq_ok.1 hentries
    rw [pure_eq_ok, Except.ok.injEq] at hflat
    obtain ⟨hfree, hspec⟩ := of_run_creates h
    -- An entry is that of a policy of some table, and is filed under the name of that table.
    have hsource : ∀ e ∈ entries, ∃ t ∈ s.tables, ∃ es, tableEntries t = .ok es ∧ e ∈ es := by
      intro e he
      rw [← hflat, List.mem_flatten] at he
      obtain ⟨es, hes, he⟩ := he
      obtain ⟨t, ht, htable⟩ := exists_item_of_mem hlists hes
      exact ⟨t, ht, es, htable, he⟩
    have hnamed : ∀ t ∈ s.tables, ∀ es, tableEntries t = .ok es → ∃ named : Named,
        withNames t.name t.policies = .ok named ∧ (∀ p ∈ named, p.1.IsText) ∧
          es = entriesOf t.name named :=
      fun t ht es hes => withNames_of_entries (hnames.policies t ht) hes
    refine ⟨fun t ht => ?_, fun key hkey => ?_⟩
    · obtain ⟨es, hmem, hes⟩ := exists_result_of_mem hlists ht
      obtain ⟨named, hwith, htexts, rfl⟩ := hnamed t ht es hes
      have hsub : (entriesOf t.name named).Sublist entries :=
        hflat ▸ List.sublist_flatten_of_mem hmem
      refine ⟨named, hwith, ⟨htexts, ?_⟩, ⟨fun p hp => ?_, fun name hname => ?_⟩⟩
      · have hplaces := hfree.nodup.sublist (hsub.map Entry.place)
        rw [place_entriesOf] at hplaces
        exact hplaces.of_map
      · exact ⟨_, hspec.present _ (hsub.subset (List.mem_map_of_mem hp)), rfl⟩
      · rw [hspec.frame _ ?_, empty]
        intro hplace
        obtain ⟨e, he, hkey⟩ := List.mem_map.1 hplace
        obtain ⟨t', ht', es', hes', he'⟩ := hsource e he
        obtain ⟨named', hwith', -, rfl⟩ := hnamed t' ht' es' hes'
        obtain ⟨p, hp, rfl⟩ := List.mem_map.1 he'
        obtain ⟨htable, htext⟩ := Prod.mk.inj hkey
        have hsame : t'.name = t.name :=
          ((hnames.tables t' ht').toText_inj (hnames.tables t ht)).1 htable
        have heq : t' = t := List.inj_on_of_nodup_map hdistinct ht' ht hsame
        subst heq
        rw [hwith, Except.ok.injEq] at hwith'
        exact hname p (hwith' ▸ hp) htext
    · rw [hspec.frame _ ?_, empty]
      intro hplace
      obtain ⟨e, he, rfl⟩ := List.mem_map.1 hplace
      obtain ⟨t, ht, es, hes, he'⟩ := hsource e he
      obtain ⟨named, -, -, rfl⟩ := hnamed t ht es hes
      obtain ⟨p, -, rfl⟩ := List.mem_map.1 he'
      exact hkey t ht rfl
  next => exact absurd h (by simp)

end SchemaCompiler.RowSecurity
