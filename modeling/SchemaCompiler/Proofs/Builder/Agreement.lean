import SchemaCompiler.Migration.Statement
import SchemaCompiler.Proofs.Builder.Program

/-!
# Builders and definitions agree

A definition that can be read describes the same schema as the program that declares its objects
one by one.  While a block is open, its draft holds what has been read from the part of the
definition that is done; between blocks, so do the recorded objects.

* `Declarable` — definitions whose options can be given by name;
* `execute_field` … `execute_relationship` — a part of a table is declared as it is read;
* `execute_table`, `execute_storageBucket` — so is a whole block;
* `execute_ofDefinition` — **the program for a definition ends well, and builds the schema that is
  read from it**.
-/

namespace SchemaCompiler

open Builder Program

/-! ### Definitions that can be declared -/

/-- Options of a relationship that can be given by name: their keys are texts, since only a text can
stand before an argument as its name, and there is no parameter of that name. -/
def LinkOptions (value : Value) : Prop :=
  value = .null ∨ ∃ options : List (String × Value), value = .mapping (options.map entryOf) ∧
    ∀ o ∈ options, o.1 ≠ "name" ∧ o.1 ≠ Signature.reservedName

/-- A table whose options, and those of all its parts, can be given by name. -/
structure DeclarableTable (d : Value) : Prop where
  options : HasKeywords TableOptions (optionsOf d)
  fields : ∀ f ∈ d.listed "fields", HasKeywords FieldOptions (optionsOf f)
  indexes : ∀ i ∈ d.listed "indexes", HasKeywords IndexOptions (optionsOf i)
  policies : ∀ p ∈ d.listed "policies", HasKeywords PolicyOptions (optionsOf p)
  triggers : ∀ g ∈ d.listed "triggers", HasKeywords TriggerOptions (optionsOf g)
  relationships : ∀ r ∈ d.listed "relationships", LinkOptions (optionsOf r)

/-- A storage bucket whose options, and those of its policies, can be given by name. -/
structure DeclarableBucket (d : Value) : Prop where
  options : HasKeywords BucketOptions (optionsOf d)
  policies : ∀ p ∈ d.listed "policies", HasKeywords PolicyOptions (optionsOf p)

/-- A definition whose options can all be given by name. -/
structure Declarable (d : Value) : Prop where
  tables : ∀ t ∈ d.listed "tables", DeclarableTable t
  functions : ∀ f ∈ d.listed "functions", HasKeywords FunctionOptions (optionsOf f)
  views : ∀ v ∈ d.listed "views", HasKeywords ViewOptions (optionsOf v)
  storageBuckets : ∀ s ∈ d.listed "storage_buckets", DeclarableBucket s

/-! ### Parts of a block -/

section Parts

variable {d : Value} (b : Builder)

theorem readOptions_eq_ok {α : Type} [OptionSet α] {owner : String} {options : α}
    (h : readOptions α d owner = .ok options) :
    OptionSet.ofValue α (optionsOf d) owner = .ok options := by
  obtain ⟨value, hvalue, h⟩ := bind_eq_ok.1 h
  rw [optionsOf, Value.settingD_eq_ok hvalue]
  exact h

/-- An operation that takes the options of a definition. -/
theorem execute_perform {α : Type} [OptionSet α] [PlainNames α] {options : α} {owner : String}
    (hread : OptionSet.ofValue α (optionsOf d) owner = .ok options)
    (hoptions : HasKeywords α (optionsOf d)) {operation : Operation} {positional : List Value}
    {draft next : Draft} (hkind : operation.isFor draft.kind = true)
    (hlength : positional.length = operation.signature.parameters.length)
    (htakes : operation.signature.takesOptions = true ∧
      ∀ key ∈ "for" :: OptionSet.names α, operation.signature.Takes key)
    (hperform : draft.perform operation ⟨positional, (optionsOf d).keywords⟩ = .ok next) :
    (b.within draft).execute [perform operation positional d] = .ok (b.within next) :=
  execute_cons (step_perform b hkind
    (bind_keywords hread hoptions hlength htakes.1 htakes.2) hperform) []

theorem execute_field {f : Field} (h : Field.ofValue d = .ok f)
    (hoptions : HasKeywords FieldOptions (optionsOf d)) (t : Table) :
    (b.within (.table t)).execute (field d) =
      .ok (b.within (.table { t with fields := t.fields ++ [f] })) := by
  obtain ⟨name, hname, h⟩ := bind_eq_ok.1 h
  obtain ⟨type, htype, h⟩ := bind_eq_ok.1 h
  obtain ⟨options, hread, h⟩ := bind_eq_ok.1 h
  rw [← Except.ok.inj h]
  have hread := readOptions_eq_ok hread
  refine execute_perform b hread hoptions rfl rfl (by decide) ?_
  rw [Value.settingOr_of_require hname, Value.settingOr_of_require htype, Draft.perform,
    Draft.performOnTable, ofValue_keywords hread hoptions]
  rfl

theorem execute_index {i : Index} (h : Index.ofValue d = .ok i)
    (hoptions : HasKeywords IndexOptions (optionsOf d)) (t : Table) :
    (b.within (.table t)).execute (index d) =
      .ok (b.within (.table { t with indexes := t.indexes ++ [i] })) := by
  obtain ⟨columns, hcolumns, h⟩ := bind_eq_ok.1 h
  obtain ⟨fields, hfields, h⟩ := bind_eq_ok.1 h
  obtain ⟨options, hread, h⟩ := bind_eq_ok.1 h
  have hread := readOptions_eq_ok hread
  refine execute_perform b hread hoptions rfl rfl (by decide) ?_
  rw [Value.settingOr_of_require hcolumns, Draft.perform, Draft.performOnTable, hfields, ok_bind,
    ofValue_keywords hread hoptions, ok_bind, h]
  rfl

theorem execute_trigger {g : Trigger} (h : Trigger.ofValue d = .ok g)
    (hoptions : HasKeywords TriggerOptions (optionsOf d)) (t : Table) :
    (b.within (.table t)).execute (trigger d) =
      .ok (b.within (.table { t with triggers := t.triggers ++ [g] })) := by
  obtain ⟨name, hname, h⟩ := bind_eq_ok.1 h
  obtain ⟨value, hvalue, h⟩ := bind_eq_ok.1 h
  obtain ⟨events, hevents, h⟩ := bind_eq_ok.1 h
  obtain ⟨body, hbody, h⟩ := bind_eq_ok.1 h
  obtain ⟨options, hread, h⟩ := bind_eq_ok.1 h
  have hread := readOptions_eq_ok hread
  refine execute_perform b hread hoptions rfl rfl (by decide) ?_
  rw [Value.settingOr_of_require hname, Value.settingOr_of_require hvalue,
    Value.settingOr_of_require hbody, Draft.perform, Draft.performOnTable, hevents, ok_bind,
    ofValue_keywords hread hoptions, ok_bind, h]
  rfl

theorem policyOptions_eq_ok {p : Policy} (h : Policy.ofValue d = .ok p) :
    ∃ options owner, OptionSet.ofValue PolicyOptions (optionsOf d) owner = .ok options := by
  obtain ⟨description, -, h⟩ := bind_eq_ok.1 h
  obtain ⟨action, -, h⟩ := bind_eq_ok.1 h
  obtain ⟨condition, -, h⟩ := bind_eq_ok.1 h
  obtain ⟨options, hread, h⟩ := bind_eq_ok.1 h
  exact ⟨options, _, readOptions_eq_ok hread⟩

theorem declaredPolicy_eq_ok {p : Policy} (h : Policy.ofValue d = .ok p)
    (hoptions : HasKeywords PolicyOptions (optionsOf d)) :
    Draft.declaredPolicy (d.settingOr "action" .null) (d.settingOr "description" (.text ""))
      (d.settingOr "condition" .null) (optionsOf d).keywords = .ok p := by
  obtain ⟨description, hdescription, h⟩ := bind_eq_ok.1 h
  obtain ⟨action, haction, h⟩ := bind_eq_ok.1 h
  obtain ⟨condition, hcondition, h⟩ := bind_eq_ok.1 h
  obtain ⟨options, hread, h⟩ := bind_eq_ok.1 h
  rw [Value.settingD_eq_ok hdescription, Value.settingOr_of_require haction,
    Value.settingOr_of_require hcondition, Draft.declaredPolicy,
    ofValue_keywords (readOptions_eq_ok hread) hoptions]
  exact h

theorem execute_policy {p : Policy} (h : Policy.ofValue d = .ok p)
    (hoptions : HasKeywords PolicyOptions (optionsOf d)) (t : Table) :
    (b.within (.table t)).execute (policy d) =
      .ok (b.within (.table { t with policies := t.policies ++ [p] })) := by
  obtain ⟨options, owner, hread⟩ := policyOptions_eq_ok h
  refine execute_perform b hread hoptions rfl rfl (by decide) ?_
  rw [Draft.perform, Draft.performOnTable, declaredPolicy_eq_ok h hoptions]
  rfl

theorem execute_bucketPolicy {p : Policy} (h : Policy.ofValue d = .ok p)
    (hoptions : HasKeywords PolicyOptions (optionsOf d)) (s : StorageBucket) :
    (b.within (.storageBucket s)).execute (policy d) =
      .ok (b.within (.storageBucket { s with policies := s.policies ++ [p] })) := by
  obtain ⟨options, owner, hread⟩ := policyOptions_eq_ok h
  refine execute_perform b hread hoptions rfl rfl (by decide) ?_
  rw [Draft.perform, Draft.performOnBucket, declaredPolicy_eq_ok h hoptions]
  rfl

theorem linkOptions_eq {value : Value} (h : LinkOptions value) {options : List (Value × Value)}
    (hoptions : (if value.isTrue then value.entries else .ok []) = .ok options) :
    options = value.keywords.map entryOf := by
  rcases h with rfl | ⟨named, rfl, -⟩
  · exact (Except.ok.inj hoptions).symm
  · rw [keywords_mapping]
    split at hoptions
    next => exact (Except.ok.inj hoptions).symm
    next hfalse =>
      cases named with
      | nil => exact (Except.ok.inj hoptions).symm
      | cons o named => exact absurd rfl hfalse

theorem ne_of_linkOptions {value : Value} (h : LinkOptions value) {o : String × Value}
    (ho : o ∈ value.keywords) : o.1 ≠ "name" ∧ o.1 ≠ Signature.reservedName := by
  rcases h with rfl | ⟨named, rfl, hnames⟩
  · exact absurd ho List.not_mem_nil
  · rw [keywords_mapping] at ho
    exact hnames o ho

theorem execute_relationship {r : Relationship} (h : Relationship.ofValue d = .ok r)
    (hoptions : LinkOptions (optionsOf d)) (t : Table) :
    (b.within (.table t)).execute (relationship d) =
      .ok (b.within (.table { t with relationships := t.relationships ++ [r] })) := by
  obtain ⟨name, hname, h⟩ := bind_eq_ok.1 h
  obtain ⟨word, hword, h⟩ := bind_eq_ok.1 h
  obtain ⟨value, hvalue, h⟩ := bind_eq_ok.1 h
  have h : ((if value.isTrue then value.entries else .ok []) >>= Relationship.make word name) =
      .ok r := by
    rw [← h]
    generalize value.isTrue = given
    cases given <;> rfl
  obtain ⟨options, hread, h⟩ := bind_eq_ok.1 h
  obtain ⟨kind, hkind, h⟩ := bind_eq_ok.1 h
  rw [← Except.ok.inj h]
  have hvalue : optionsOf d = value := Value.settingD_eq_ok hvalue
  rw [hvalue] at hoptions
  obtain ⟨kind, rfl⟩ := Vocabulary.exists_of_read hkind (Value.require_eq_ok hword).2
  rw [relationship, Value.settingOr_of_require hword, hkind]
  have hbind : (Operation.relationship kind).signature.bind
      ⟨[d.settingOr "name" .null], (optionsOf d).keywords⟩ =
      .ok ⟨[d.settingOr "name" .null], (optionsOf d).keywords⟩ := by
    refine bind_eq_ok_of_takes rfl rfl fun o ho => ?_
    obtain ⟨hname, hreserved⟩ := ne_of_linkOptions hoptions (hvalue ▸ ho)
    exact ⟨hreserved, by simp [Parameter.named, Operation.signature, Ne.symm hname]⟩
  refine execute_cons (step_perform b rfl hbind ?_) []
  rw [Value.settingOr_of_require hname, hvalue, linkOptions_eq hoptions hread]
  rfl

end Parts

/-! ### Blocks -/

section Blocks

variable {d : Value} {b : Builder}

theorem step_enter_table (hb : b.current = none) {name : Value}
    (hname : d.settingOr "name" .null = name) {options : TableOptions}
    (hread : readOptions TableOptions d (phrase "table" name) = .ok options)
    (hoptions : HasKeywords TableOptions (optionsOf d)) :
    b.step (enter .table d) = (b.within (.table { name, options }), .ok none) := by
  have hread := readOptions_eq_ok hread
  refine step_enter hb (bind_keywords hread hoptions rfl rfl (by decide)) ?_
  rw [List.headD_cons, hname, Draft.start, ofValue_keywords hread hoptions]
  rfl

theorem step_enter_bucket (hb : b.current = none) {name : Value}
    (hname : d.settingOr "name" .null = name) {options : BucketOptions}
    (hread : readOptions BucketOptions d (phrase "bucket" name) = .ok options)
    (hoptions : HasKeywords BucketOptions (optionsOf d)) :
    b.step (enter .storageBucket d) = (b.within (.storageBucket { name, options }), .ok none) := by
  have hread := readOptions_eq_ok hread
  refine step_enter hb (bind_keywords hread hoptions rfl rfl (by decide)) ?_
  rw [List.headD_cons, hname, Draft.start, ofValue_keywords hread hoptions]
  rfl

theorem execute_security {setting : Value}
    (hsetting : d.settingOr "rls_enabled" (.bool false) = setting) {t : Table}
    (ht : t.rlsEnabled = false) :
    (b.within (.table t)).execute (security d) =
      .ok (b.within (.table { t with rlsEnabled := setting.isTrue })) := by
  rw [security, hsetting]
  cases setting.isTrue with
  | false =>
    have hself : { t with rlsEnabled := false } = t := by rw [← ht]
    rw [hself]
    rfl
  | true => exact execute_cons (step_perform b rfl rfl rfl) []

/-- The parts of a block are declared as they are read: `draft` is the draft with a list of them. -/
theorem execute_parts {α : Type} (draft : List α → Draft) {read : Value → Except Fault α}
    {items : List Value} {found : List α} (hread : items.mapM read = .ok found)
    {steps : Value → List Step}
    (hstep : ∀ d ∈ items, ∀ x, read d = .ok x → ∀ done,
      (b.within (draft done)).execute (steps d) = .ok (b.within (draft (done ++ [x])))) :
    (b.within (draft [])).execute (items.flatMap steps) = .ok (b.within (draft found)) := by
  obtain ⟨next, hnext, rfl⟩ := execute_each (fun done next => next = b.within (draft done)) hread
    (fun d hd x hx done next hnext => ⟨_, hnext ▸ hstep d hd x hx done, rfl⟩) rfl
  exact hnext

/-- A checked table is the table itself. -/
theorem Table.eq_of_checked {t checked : Table} (h : t.checked = .ok checked) : t = checked := by
  obtain ⟨-, -, h⟩ := bind_eq_ok.1 h
  exact Except.ok.inj h

/-- **The program for a table records the table that is read.** -/
theorem execute_table (hb : b.current = none) {t : Table} (h : Table.ofValue d = .ok t)
    (hd : DeclarableTable d) : ∃ next, b.execute (table d) = .ok next ∧ next.current = none ∧
      next.recorded = { b.recorded with tables := b.recorded.tables ++ [t] } := by
  obtain ⟨name, hname, h⟩ := bind_eq_ok.1 h
  obtain ⟨fields, hfields, h⟩ := bind_eq_ok.1 h
  obtain ⟨indexes, hindexes, h⟩ := bind_eq_ok.1 h
  obtain ⟨policies, hpolicies, h⟩ := bind_eq_ok.1 h
  obtain ⟨triggers, htriggers, h⟩ := bind_eq_ok.1 h
  obtain ⟨relationships, hrelationships, h⟩ := bind_eq_ok.1 h
  obtain ⟨setting, hsetting, h⟩ := bind_eq_ok.1 h
  obtain ⟨options, hoptions, h⟩ := bind_eq_ok.1 h
  -- after each list the draft is the table as far as it has been read
  have henter := step_enter_table hb (Value.settingOr_of_require hname) hoptions hd.options
  have hsecurity := execute_security (b := b) (t := { name, options })
    (Value.settingD_eq_ok hsetting) rfl
  have hfields := execute_parts (b := b)
    (fun done => .table { name, options, rlsEnabled := setting.isTrue, fields := done })
    (readEach_eq_ok hfields) fun f hf x hx done => execute_field b hx (hd.fields f hf) _
  have hindexes := execute_parts (b := b)
    (fun done => .table { name, options, rlsEnabled := setting.isTrue, fields, indexes := done })
    (readEach_eq_ok hindexes) fun i hi x hx done => execute_index b hx (hd.indexes i hi) _
  have hpolicies := execute_parts (b := b)
    (fun done => .table
      { name, options, rlsEnabled := setting.isTrue, fields, indexes, policies := done })
    (readEach_eq_ok hpolicies) fun p hp x hx done => execute_policy b hx (hd.policies p hp) _
  have htriggers := execute_parts (b := b)
    (fun done => .table
      { name, options, rlsEnabled := setting.isTrue, fields, indexes, policies, triggers := done })
    (readEach_eq_ok htriggers) fun g hg x hx done => execute_trigger b hx (hd.triggers g hg) _
  have hrelationships := execute_parts (b := b)
    (fun done => .table
      { name, options, rlsEnabled := setting.isTrue, fields, indexes, policies, triggers,
        relationships := done })
    (readEach_eq_ok hrelationships)
    fun r hr x hx done => execute_relationship b hx (hd.relationships r hr) _
  have hself := Table.eq_of_checked h
  rw [hself] at h hrelationships
  refine ⟨b.after (.table t) { b.recorded with tables := b.recorded.tables ++ [t] }, ?_, rfl, rfl⟩
  rw [table, execute_cons henter, execute_append hsecurity, execute_append hfields,
    execute_append hindexes, execute_append hpolicies, execute_append htriggers,
    execute_append hrelationships, execute_cons (step_leave_table b h)]
  rfl

/-- **The program for a storage bucket records the bucket that is read.** -/
theorem execute_storageBucket (hb : b.current = none) {s : StorageBucket}
    (h : StorageBucket.ofValue d = .ok s) (hd : DeclarableBucket d) :
    ∃ next, b.execute (storageBucket d) = .ok next ∧ next.current = none ∧
      next.recorded =
        { b.recorded with storageBuckets := b.recorded.storageBuckets ++ [s] } := by
  obtain ⟨name, hname, h⟩ := bind_eq_ok.1 h
  obtain ⟨policies, hpolicies, h⟩ := bind_eq_ok.1 h
  obtain ⟨options, hoptions, h⟩ := bind_eq_ok.1 h
  have hself := Except.ok.inj h
  have henter := step_enter_bucket hb (Value.settingOr_of_require hname) hoptions hd.options
  have hpolicies := execute_parts (b := b)
    (fun done => .storageBucket { name, options, policies := done })
    (readEach_eq_ok hpolicies) fun p hp x hx done => execute_bucketPolicy b hx (hd.policies p hp) _
  rw [hself] at hpolicies
  refine ⟨b.after (.storageBucket s)
    { b.recorded with storageBuckets := b.recorded.storageBuckets ++ [s] }, ?_, rfl, rfl⟩
  rw [storageBucket, execute_cons henter, execute_append hpolicies,
    execute_cons (step_leave_bucket b s)]
  rfl

end Blocks

/-! ### Declarations -/

section Declarations

variable {d : Value} (b : Builder)

/-- A declaration that takes the options of a definition. -/
theorem execute_declare {α : Type} [OptionSet α] [PlainNames α] {options : α} {owner : String}
    (hread : OptionSet.ofValue α (optionsOf d) owner = .ok options)
    (hoptions : HasKeywords α (optionsOf d)) {declaration : Declaration} {positional : List Value}
    {s : Schema} (hlength : positional.length = declaration.signature.parameters.length)
    (htakes : declaration.signature.takesOptions = true ∧
      ∀ key ∈ "for" :: OptionSet.names α, declaration.signature.Takes key)
    (hdeclare : declaration.declare b.recorded ⟨positional, (optionsOf d).keywords⟩ = .ok s) :
    b.execute [declare declaration positional d] = .ok { b with recorded := s } :=
  execute_cons (step_declare b
    (bind_keywords hread hoptions hlength htakes.1 htakes.2) hdeclare) []

theorem execute_function {f : Function} (h : Function.ofValue d = .ok f)
    (hoptions : HasKeywords FunctionOptions (optionsOf d)) :
    b.execute (function d) = .ok { b with
      recorded := { b.recorded with functions := b.recorded.functions ++ [f] } } := by
  obtain ⟨name, hname, h⟩ := bind_eq_ok.1 h
  obtain ⟨value, hvalue, h⟩ := bind_eq_ok.1 h
  obtain ⟨args, hargs, h⟩ := bind_eq_ok.1 h
  obtain ⟨returnType, hreturn, h⟩ := bind_eq_ok.1 h
  obtain ⟨body, hbody, h⟩ := bind_eq_ok.1 h
  obtain ⟨options, hread, h⟩ := bind_eq_ok.1 h
  rw [← Except.ok.inj h]
  have hread := readOptions_eq_ok hread
  refine execute_declare b hread hoptions rfl (by decide) ?_
  rw [Value.settingOr_of_require hname, Value.settingD_eq_ok hvalue,
    Value.settingOr_of_require hreturn, Value.settingOr_of_require hbody, Declaration.declare,
    hargs, ok_bind, ofValue_keywords hread hoptions]
  rfl

theorem execute_view {v : View} (h : View.ofValue d = .ok v)
    (hoptions : HasKeywords ViewOptions (optionsOf d)) :
    b.execute (view d) = .ok { b with
      recorded := { b.recorded with views := b.recorded.views ++ [v] } } := by
  obtain ⟨name, hname, h⟩ := bind_eq_ok.1 h
  obtain ⟨query, hquery, h⟩ := bind_eq_ok.1 h
  obtain ⟨options, hread, h⟩ := bind_eq_ok.1 h
  rw [← Except.ok.inj h]
  have hread := readOptions_eq_ok hread
  refine execute_declare b hread hoptions rfl (by decide) ?_
  rw [Value.settingOr_of_require hname, Value.settingOr_of_require hquery, Declaration.declare,
    ofValue_keywords hread hoptions]
  rfl

theorem mem_of_typeKeyword {o : String × Value} (ho : o ∈ typeKeywords d) :
    o.1 ∈ Declaration.typeOptions := by
  obtain ⟨key, hkey, ho⟩ := List.mem_filterMap.1 ho
  obtain ⟨v, -, rfl⟩ := Option.map_eq_some_iff.1 ho
  exact hkey

theorem lookup_typeKeywords {key : String} (hkey : key ∈ Declaration.typeOptions) :
    (typeKeywords d).lookup key = d.get? key := by
  have hlookup : ∀ keys : List String,
      (keys.filterMap fun k => (d.get? k).map fun v => (k, v)).lookup key =
        if key ∈ keys then d.get? key else none := by
    intro keys
    induction keys with
    | nil => rfl
    | cons k keys ih =>
      rw [List.filterMap_cons]
      by_cases hk : key = k
      · subst hk
        rw [if_pos List.mem_cons_self]
        cases hget : d.get? key with
        | none =>
          rw [Option.map_none]
          dsimp only
          rw [ih, hget, ite_self]
        | some v =>
          rw [Option.map_some]
          exact List.lookup_cons_self
      · have hmem : key ∈ k :: keys ↔ key ∈ keys := by
          rw [List.mem_cons, or_iff_right hk]
        rw [if_congr hmem rfl rfl, ← ih]
        cases d.get? k with
        | none => rfl
        | some v =>
          rw [Option.map_some]
          dsimp only
          rw [List.lookup_cons, beq_false_of_ne hk]
  exact (hlookup Declaration.typeOptions).trans (if_pos hkey)

theorem checkTypeOptions_typeKeywords (type : Value) :
    Declaration.checkTypeOptions type (typeKeywords d) = .ok () := by
  have hnone : ((typeKeywords d).map Prod.fst).filter
      (fun key => !Declaration.typeOptions.contains key) = [] := by
    rw [List.filter_eq_nil_iff]
    intro key hkey
    obtain ⟨o, ho, rfl⟩ := List.mem_map.1 hkey
    rw [List.contains_iff_mem.2 (mem_of_typeKeyword ho)]
    exact Bool.false_ne_true
  rw [Declaration.checkTypeOptions, hnone, List.mergeSort_nil]
  rfl

theorem execute_customType {c : CustomType} (h : CustomType.ofValue d = .ok c) :
    b.execute (customType d) = .ok { b with
      recorded := { b.recorded with customTypes := b.recorded.customTypes ++ [c] } } := by
  obtain ⟨name, hname, h⟩ := bind_eq_ok.1 h
  obtain ⟨kind, hkind, h⟩ := bind_eq_ok.1 h
  obtain ⟨values, hvalues, h⟩ := bind_eq_ok.1 h
  obtain ⟨fields, hfields, h⟩ := bind_eq_ok.1 h
  obtain ⟨baseType, hbase, h⟩ := bind_eq_ok.1 h
  obtain ⟨constraint, hconstraint, h⟩ := bind_eq_ok.1 h
  have hbind : Declaration.customType.signature.bind
      ⟨[d.settingOr "name" .null, d.settingOr "kind" .null], typeKeywords d⟩ =
      .ok ⟨[d.settingOr "name" .null, d.settingOr "kind" .null], typeKeywords d⟩ := by
    have htakes : ∀ key ∈ Declaration.typeOptions, Declaration.customType.signature.Takes key := by
      decide
    exact bind_eq_ok_of_takes rfl rfl fun o ho => htakes o.1 (mem_of_typeKeyword ho)
  have hoption : ∀ {key : String} {v : Value}, key ∈ Declaration.typeOptions →
      d.settingD key .null = .ok v → ((typeKeywords d).lookup key).getD .null = v := by
    intro key v hkey hv
    rw [lookup_typeKeywords hkey]
    exact Value.settingD_eq_ok hv
  refine execute_cons (step_declare b hbind ?_) []
  rw [Value.settingOr_of_require hname, Value.settingOr_of_require hkind, Declaration.declare,
    checkTypeOptions_typeKeywords, ok_bind]
  dsimp only
  rw [hoption (by decide) hvalues, hoption (by decide) hfields, hoption (by decide) hbase,
    hoption (by decide) hconstraint, h]
  rfl

end Declarations

/-! ### The whole definition -/

/-- **The program for a definition ends well, and builds the schema that is read from it.**  What
it compiles to is the same, too. -/
theorem execute_ofDefinition {d : Value} {s : Schema} (h : Schema.ofValue d = .ok s)
    (hd : Declarable d) : ∃ b, Builder.execute {} (ofDefinition d) = .ok b ∧
      Builder.run {} (ofDefinition d) = b ∧ b.build = .ok s ∧
      b.build.map (fun built => compile [built]) = .ok (compile [s]) := by
  have hmapping : ∃ es, d = .mapping es := by
    cases d with
    | mapping es => exact ⟨es, rfl⟩
    | _ => exact nomatch h
  obtain ⟨es, rfl⟩ := hmapping
  obtain ⟨tables, htables, h⟩ := bind_eq_ok.1 h
  obtain ⟨functions, hfunctions, h⟩ := bind_eq_ok.1 h
  obtain ⟨views, hviews, h⟩ := bind_eq_ok.1 h
  obtain ⟨storageBuckets, hbuckets, h⟩ := bind_eq_ok.1 h
  obtain ⟨customTypes, htypes, h⟩ := bind_eq_ok.1 h
  -- between blocks the recorded objects are those that have been read
  obtain ⟨b₁, htypes, hb₁⟩ := execute_each
    (fun done b => b.current = none ∧ b.recorded = { customTypes := done })
    (readEach_eq_ok htypes)
    (fun c hc x hx done b hb => ⟨_, execute_customType b hx, hb.1, by rw [hb.2]⟩)
    (show ({} : Builder).current = none ∧ _ from ⟨rfl, rfl⟩)
  obtain ⟨b₂, hfunctions, hb₂⟩ := execute_each
    (fun done b => b.current = none ∧ b.recorded = { customTypes, functions := done })
    (readEach_eq_ok hfunctions)
    (fun f hf x hx done b hb =>
      ⟨_, execute_function b hx (hd.functions f hf), hb.1, by rw [hb.2]⟩) hb₁
  obtain ⟨b₃, hviews, hb₃⟩ := execute_each
    (fun done b => b.current = none ∧ b.recorded = { customTypes, functions, views := done })
    (readEach_eq_ok hviews)
    (fun v hv x hx done b hb => ⟨_, execute_view b hx (hd.views v hv), hb.1, by rw [hb.2]⟩) hb₂
  obtain ⟨b₄, htables, hb₄⟩ := execute_each
    (fun done b => b.current = none ∧
      b.recorded = { customTypes, functions, views, tables := done })
    (readEach_eq_ok htables)
    (fun t ht x hx done b hb => by
      obtain ⟨next, hnext, hidle, hrecorded⟩ := execute_table hb.1 hx (hd.tables t ht)
      exact ⟨next, hnext, hidle, by rw [hrecorded, hb.2]⟩) hb₃
  obtain ⟨b₅, hbuckets, hb₅⟩ := execute_each
    (fun done b => b.current = none ∧
      b.recorded = { customTypes, functions, views, tables, storageBuckets := done })
    (readEach_eq_ok hbuckets)
    (fun u hu x hx done b hb => by
      obtain ⟨next, hnext, hidle, hrecorded⟩ :=
        execute_storageBucket hb.1 hx (hd.storageBuckets u hu)
      exact ⟨next, hnext, hidle, by rw [hrecorded, hb.2]⟩) hb₄
  have hexecute : Builder.execute {} (ofDefinition (.mapping es)) = .ok b₅ := by
    rw [ofDefinition, execute_append htypes, execute_append hfunctions, execute_append hviews,
      execute_append htables, hbuckets]
  have hbuild : b₅.build = .ok s := by
    rw [build, openBlock?_eq_none hb₅.1]
    dsimp only
    rw [hb₅.2, h]
  exact ⟨b₅, hexecute, run_of_execute hexecute, hbuild, by rw [hbuild]; rfl⟩

/-- Posts of a forum, with what is declared along with them. -/
def posts : Value := namedOptions [
  ("name", .text "posts"), ("rls_enabled", .int 1),
  ("options", namedOptions [("comment", .text "What members write")]),
  ("fields", .list [
    namedOptions [("name", .text "id"), ("type", .text "uuid"),
      ("options", namedOptions [("primary_key", .bool true)])],
    namedOptions [("name", .text "author"), ("type", .text "uuid"),
      ("options", namedOptions [("references", .text "members(id)"),
        ("on_delete", .text "CASCADE")])],
    namedOptions [("name", .text "body"), ("type", .text "text"), ("options", .null)]]),
  ("indexes", .list [namedOptions [("fields", .list [.text "author"]),
    ("options", namedOptions [("name", .text "posts_by_author"), ("unique", .bool false)])]]),
  ("policies", .list [namedOptions [("action", .text "Select"), ("condition", .text "true"),
    ("options", namedOptions [("for", .text "authenticated")])]]),
  ("triggers", .list [namedOptions [("name", .text "touch"), ("events", .list [.text "update"]),
    ("body", .text "NEW.changed = now();"),
    ("options", namedOptions [("timing", .text "before")])]]),
  ("relationships", .list [
    namedOptions [("name", .text "author"), ("kind", .text "belongs_to"),
      ("options", namedOptions [("table", .text "members")])],
    namedOptions [("name", .text "replies"), ("kind", .text "has_many")]])]

/-- The definition of a forum. -/
def forum : Value := namedOptions [
  ("tables", .list [posts]),
  ("functions", .list [namedOptions [("name", .text "me"), ("return_type", .text "uuid"),
    ("body", .text "SELECT auth.uid()"), ("options", namedOptions [("language", .text "sql")])]]),
  ("views", .list [namedOptions [("name", .text "authors"),
    ("query", .text "SELECT author FROM posts")]]),
  ("storage_buckets", .list [namedOptions [("name", .text "pictures"),
    ("options", namedOptions [("public", .bool true)]),
    ("policies", .list [namedOptions [("action", .text "insert"), ("description", .text "Members"),
      ("condition", .text "is_member()")]])]]),
  ("custom_types", .list [namedOptions [("name", .text "mood"), ("kind", .text "enum"),
    ("values", .list [.text "good", .text "bad"])]])]

theorem posts_declarable : DeclarableTable posts where
  options := trivial
  fields := List.forall_mem_cons.2 ⟨trivial, List.forall_mem_cons.2 ⟨trivial,
    List.forall_mem_cons.2 ⟨trivial, nofun⟩⟩⟩
  indexes := List.forall_mem_cons.2 ⟨trivial, nofun⟩
  policies := List.forall_mem_cons.2 ⟨trivial, nofun⟩
  triggers := List.forall_mem_cons.2 ⟨trivial, nofun⟩
  relationships := List.forall_mem_cons.2
    ⟨.inr ⟨[("table", .text "members")], rfl, by decide⟩,
      List.forall_mem_cons.2 ⟨.inl rfl, nofun⟩⟩

theorem forum_declarable : Declarable forum where
  tables := List.forall_mem_cons.2 ⟨posts_declarable, nofun⟩
  functions := List.forall_mem_cons.2 ⟨trivial, nofun⟩
  views := List.forall_mem_cons.2 ⟨trivial, nofun⟩
  storageBuckets := List.forall_mem_cons.2
    ⟨⟨trivial, List.forall_mem_cons.2 ⟨trivial, nofun⟩⟩, nofun⟩

/-- The forum is built as it is read. -/
theorem execute_forum : ∃ s b, Schema.ofValue forum = .ok s ∧ s.tables.length = 1 ∧
    Builder.execute {} (ofDefinition forum) = .ok b ∧ b.build = .ok s := by
  have hread : ((Schema.ofValue forum).map fun s => s.tables.length).toOption = some 1 := by
    decide +kernel
  cases h : Schema.ofValue forum with
  | error fault => rw [h] at hread; exact nomatch hread
  | ok s =>
    rw [h] at hread
    obtain ⟨b, hexecute, -, hbuild, -⟩ := execute_ofDefinition h forum_declarable
    exact ⟨s, b, rfl, Option.some.inj hread, hexecute, hbuild⟩

end SchemaCompiler
