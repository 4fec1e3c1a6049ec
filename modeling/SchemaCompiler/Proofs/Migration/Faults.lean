import SchemaCompiler.Migration.Statement
import SchemaCompiler.Proofs.Outcome
import SchemaCompiler.RowSecurity.Changes

/-!
# What can go wrong with a definition

A definition breaks a rule of the definition language, or it has a value that cannot be worked with;
nothing else can go wrong when it is read and compiled, whatever it is.

* `Blames` — all that can go wrong with a computation is of these two kinds; `blames_bind` and the
  other rules say when a computation made of others is so;
* `Schema.blames_ofValue`, `blames_compile`, `RowSecurity.blames_schemaChangeTexts` — **a definition
  is read, compiled and compared without any other fault**.
-/

namespace SchemaCompiler

/-- All that can go wrong with a computation is a broken rule or a value that cannot be worked
with. -/
def Blames {α : Type} (x : Except Fault α) : Prop :=
  ∀ fault, x = .error fault → (∃ cause, fault = .schema cause) ∨ ∃ cause, fault = .misuse cause

section Rules

variable {α β : Type}

@[simp] theorem blames_ok (a : α) : Blames (.ok a) := nofun

@[simp] theorem blames_pure (a : α) : Blames (pure a) := nofun

@[simp] theorem blames_schema (cause : SchemaFault) :
    Blames (.error (.schema cause) : Except Fault α) := by
  intro fault h
  cases h
  exact .inl ⟨cause, rfl⟩

@[simp] theorem blames_misuse (cause : Misuse) :
    Blames (.error (.misuse cause) : Except Fault α) := by
  intro fault h
  cases h
  exact .inr ⟨cause, rfl⟩

theorem blames_bind {x : Except Fault α} {f : α → Except Fault β} (hx : Blames x)
    (hf : ∀ a, Blames (f a)) : Blames (x >>= f) := by
  intro fault h
  cases x with
  | error cause =>
    cases h
    exact hx fault rfl
  | ok a => exact hf a fault h

/-- What is made of a result has no part in it. -/
theorem blames_bind_pure {x : Except Fault α} (f : α → β) (hx : Blames x) :
    Blames (x >>= fun a => pure (f a)) := blames_bind hx fun _ => blames_pure _

theorem blames_map {x : Except Fault α} {f : α → β} (hx : Blames x) : Blames (x.map f) := by
  intro fault h
  cases x with
  | error cause =>
    cases h
    exact hx fault rfl
  | ok a => exact nomatch h

theorem blames_mapM {f : α → Except Fault β} {as : List α} (h : ∀ a, Blames (f a)) :
    Blames (as.mapM f) := by
  induction as with
  | nil => exact blames_pure []
  | cons a as ih =>
    rw [List.mapM_cons]
    exact blames_bind (h a) fun b => blames_bind_pure _ ih

theorem blames_ite {c : Prop} [Decidable c] {x y : Except Fault α} (hx : Blames x)
    (hy : Blames y) : Blames (if c then x else y) := by
  split
  · exact hx
  · exact hy

end Rules

/-! ### Values -/

namespace Value

theorem blames_items (v : Value) : Blames v.items := by
  cases v <;> simp [items]

theorem blames_textOnly (misuse : Misuse) (v : Value) : Blames (textOnly misuse v) := by
  cases v <;> simp [textOnly]

theorem blames_settingD (v : Value) (key : String) (default : Value) :
    Blames (v.settingD key default) := by
  apply blames_map
  cases v <;> simp [setting?]

theorem blames_holds (key v : Value) : Blames (holds key v) := by
  cases v with
  | mapping entries => exact blames_ite (blames_ok _) (blames_misuse _)
  | text s => cases key <;> simp [holds]
  | _ => simp [holds]

theorem blames_itemAt (key : Value) (vs : List Value) : Blames (itemAt key vs) := by
  unfold itemAt
  split
  · exact blames_misuse _
  · simp only
    split
    · exact blames_ok _
    · exact blames_misuse _

theorem blames_under (key v : Value) : Blames (under key v) := by
  cases v with
  | mapping entries =>
    simp only [under]
    split
    · exact blames_ok _
    · exact blames_misuse _
  | list vs => exact blames_itemAt key vs
  | tuple vs => exact blames_itemAt key vs
  | _ => simp [under]

theorem blames_requireUnder (v key : Value) (owner : String) :
    Blames (v.requireUnder key owner) := by
  refine blames_bind (blames_holds key v) fun holds => blames_ite ?_ (blames_schema _)
  refine blames_bind (blames_under key v) fun found => ?_
  split
  · exact blames_schema _
  · exact blames_ok _

theorem blames_require (v : Value) (key owner : String) : Blames (v.require key owner) :=
  blames_requireUnder v (.text key) owner

theorem blames_pair (v : Value) : Blames v.pair := by
  refine blames_bind (blames_items v) fun parts => ?_
  split
  · exact blames_ite (blames_ok _) (blames_misuse _)
  · exact blames_misuse _

theorem blames_entries (v : Value) : Blames v.entries := by
  cases v with
  | mapping entries => exact blames_ok _
  | _ =>
    exact blames_bind (blames_items _) fun items =>
      blames_bind (blames_mapM blames_pair) fun pairs => blames_ok _

theorem blames_checkDistinct {duplicate : Value → SchemaFault} {names : List (Except Fault Value)}
    (hnames : ∀ name ∈ names, Blames name) (seen : List Value) :
    Blames (checkDistinct (fun v => .schema (duplicate v)) seen names) := by
  induction names generalizing seen with
  | nil => exact blames_ok ()
  | cons name names ih =>
    refine blames_bind (hnames name List.mem_cons_self) fun found => ?_
    refine blames_ite (blames_misuse _) (blames_ite (blames_schema _) ?_)
    exact ih (fun n hn => hnames n (List.mem_cons_of_mem _ hn)) (found :: seen)

end Value

/-! ### Definitions -/

theorem Vocabulary.blames_read (α : Type) [Vocabulary α] (v : Value) (what : String) :
    Blames (Vocabulary.read α v what) := by
  unfold Vocabulary.read
  simp only
  split
  · exact blames_ok _
  · split
    · exact blames_ok _
    · split
      · exact blames_ok _
      · exact blames_schema _
  · split
    · exact blames_ok _
    · exact blames_schema _

namespace OptionSet

theorem blames_settings (names : List String) (owner : String) (entries : List (Value × Value)) :
    Blames (settings names owner entries) := by
  induction entries with
  | nil => exact blames_ok _
  | cons entry entries ih =>
    obtain ⟨key, value⟩ := entry
    unfold settings
    simp only
    split
    · exact blames_ite (blames_map ih) (blames_schema _)
    · exact blames_schema _

theorem blames_ofValue {α : Type} [OptionSet α]
    (h : ∀ given, Blames (ofSettings (α := α) given)) (v : Value) (owner : String) :
    Blames (OptionSet.ofValue α v owner) := by
  unfold OptionSet.ofValue
  simp only
  split
  · exact h _
  · exact blames_ite (h _) (blames_schema _)
  · exact blames_bind (blames_settings _ owner _) fun given => h _
  · exact blames_schema _

/-- The values of two options are chosen from vocabularies. -/
theorem blames_chosen {α β γ : Type} [Vocabulary α] [Vocabulary β] (u v : Value)
    (what what' : String) (make : Option α → Option β → γ) :
    Blames (do
      let a ← Vocabulary.read α u what
      let b ← Vocabulary.read β v what'
      return make a b) :=
  blames_bind (Vocabulary.blames_read α u what) fun a =>
    blames_bind_pure (make a) (Vocabulary.blames_read β v what')

end OptionSet

theorem blames_readOptions {α : Type} [OptionSet α]
    (h : ∀ given, Blames (OptionSet.ofSettings (α := α) given)) (d : Value) (owner : String) :
    Blames (readOptions α d owner) :=
  blames_bind (d.blames_settingD "options" .null) fun v => OptionSet.blames_ofValue h v owner

theorem blames_readEach {α : Type} {read : Value → Except Fault α} (h : ∀ v, Blames (read v))
    (key : String) (d : Value) : Blames (readEach read key d) :=
  blames_bind (d.blames_settingD key (.list [])) fun v =>
    blames_bind v.blames_items fun _ => blames_mapM h

theorem Field.blames_ofValue (d : Value) : Blames (Field.ofValue d) := by
  refine blames_bind (d.blames_require _ _) fun name => ?_
  refine blames_bind (d.blames_require _ _) fun type => ?_
  exact blames_bind_pure _ (blames_readOptions (fun _ => OptionSet.blames_chosen _ _ _ _ _) d _)

theorem Index.blames_ofValue (d : Value) : Blames (Index.ofValue d) := by
  refine blames_bind (d.blames_require _ _) fun columns => ?_
  refine blames_bind columns.blames_items fun fields => ?_
  refine blames_bind (blames_readOptions (fun _ => blames_ok _) d _) fun options => ?_
  exact blames_ite (blames_bind_pure _ (Value.blames_items _)) (blames_schema _)

theorem Policy.blames_ofValue (d : Value) : Blames (Policy.ofValue d) := by
  refine blames_bind (d.blames_settingD _ _) fun description => ?_
  refine blames_bind (d.blames_require _ _) fun action => ?_
  refine blames_bind (d.blames_require _ _) fun condition => ?_
  refine blames_bind (blames_readOptions (fun _ => blames_ok _) d _) fun options => ?_
  refine blames_bind (Vocabulary.blames_read _ _ _) fun found => ?_
  cases found with
  | none => exact blames_schema _
  | some action => exact blames_ite (blames_ok _) (blames_schema _)

theorem Trigger.blames_ofValue (d : Value) : Blames (Trigger.ofValue d) := by
  refine blames_bind (d.blames_require _ _) fun name => ?_
  refine blames_bind (d.blames_require _ _) fun listed => ?_
  refine blames_bind listed.blames_items fun events => ?_
  refine blames_bind (d.blames_require _ _) fun body => ?_
  refine blames_bind (blames_readOptions (fun _ => OptionSet.blames_chosen _ _ _ _ _) d _)
    fun options => ?_
  exact blames_ite (blames_schema _) (blames_ok _)

theorem Relationship.blames_ofValue (d : Value) : Blames (Relationship.ofValue d) := by
  refine blames_bind (d.blames_require _ _) fun name => ?_
  refine blames_bind (d.blames_require _ _) fun kind => ?_
  refine blames_bind (d.blames_settingD _ _) fun given => ?_
  have hmake : ∀ options, Blames (Relationship.make kind name options) := fun _ =>
    blames_bind_pure _ (Vocabulary.blames_read RelationshipKind kind _)
  exact blames_ite (blames_bind given.blames_entries fun _ => hmake _)
    (blames_bind (blames_ok _) fun _ => hmake _)

theorem Table.blames_checked (t : Table) : Blames t.checked := by
  refine blames_bind_pure _ (Value.blames_checkDistinct ?_ [])
  intro name hname
  obtain ⟨f, -, rfl⟩ := List.mem_map.1 hname
  exact blames_ok _

theorem Table.blames_ofValue (d : Value) : Blames (Table.ofValue d) := by
  refine blames_bind (d.blames_require _ _) fun name => ?_
  refine blames_bind (blames_readEach Field.blames_ofValue _ d) fun fields => ?_
  refine blames_bind (blames_readEach Index.blames_ofValue _ d) fun indexes => ?_
  refine blames_bind (blames_readEach Policy.blames_ofValue _ d) fun policies => ?_
  refine blames_bind (blames_readEach Trigger.blames_ofValue _ d) fun triggers => ?_
  refine blames_bind (blames_readEach Relationship.blames_ofValue _ d) fun relationships => ?_
  refine blames_bind (d.blames_settingD _ _) fun rlsEnabled => ?_
  refine blames_bind (blames_readOptions (fun _ => blames_ok _) d _) fun options => ?_
  exact Table.blames_checked _

theorem Function.blames_ofValue (d : Value) : Blames (Function.ofValue d) := by
  refine blames_bind (d.blames_require _ _) fun name => ?_
  refine blames_bind (d.blames_settingD _ _) fun listed => ?_
  refine blames_bind listed.blames_items fun args => ?_
  refine blames_bind (d.blames_require _ _) fun returnType => ?_
  refine blames_bind (d.blames_require _ _) fun body => ?_
  exact blames_bind_pure _
    (blames_readOptions (fun _ => OptionSet.blames_chosen _ _ _ _ _) d _)

theorem View.blames_ofValue (d : Value) : Blames (View.ofValue d) := by
  refine blames_bind (d.blames_require _ _) fun name => ?_
  refine blames_bind (d.blames_require _ _) fun query => ?_
  exact blames_bind_pure _ (blames_readOptions (fun _ => blames_ok _) d _)

theorem StorageBucket.blames_ofValue (d : Value) : Blames (StorageBucket.ofValue d) := by
  refine blames_bind (d.blames_require _ _) fun name => ?_
  refine blames_bind (blames_readEach Policy.blames_ofValue _ d) fun policies => ?_
  exact blames_bind_pure _ (blames_readOptions (fun _ => blames_ok _) d _)

theorem CustomType.blames_columns (fields : Value) : Blames (CustomType.columns fields) := by
  unfold CustomType.columns
  split
  · exact blames_pure _
  · refine blames_bind fields.blames_items fun columns => ?_
    exact blames_mapM fun column => blames_bind_pure _ column.blames_items

theorem CustomType.blames_make (name kind values fields baseType constraint : Value) :
    Blames (CustomType.make name kind values fields baseType constraint) := by
  refine blames_bind (Vocabulary.blames_read TypeKind kind _) fun found => ?_
  split
  · exact blames_ite (blames_pure _) (blames_schema _)
  · exact blames_ite (blames_bind_pure _ (CustomType.blames_columns fields)) (blames_schema _)
  · exact blames_ite (blames_schema _) (blames_pure _)
  · exact blames_pure _

theorem CustomType.blames_ofValue (d : Value) : Blames (CustomType.ofValue d) := by
  refine blames_bind (d.blames_require _ _) fun name => ?_
  refine blames_bind (d.blames_require _ _) fun kind => ?_
  refine blames_bind (d.blames_settingD _ _) fun values => ?_
  refine blames_bind (d.blames_settingD _ _) fun fields => ?_
  refine blames_bind (d.blames_settingD _ _) fun baseType => ?_
  refine blames_bind (d.blames_settingD _ _) fun constraint => ?_
  exact CustomType.blames_make name kind values fields baseType constraint

theorem Schema.blames_checked (s : Schema) : Blames s.checked := by
  refine blames_bind_pure _ (Value.blames_checkDistinct ?_ [])
  intro name hname
  obtain ⟨t, -, rfl⟩ := List.mem_map.1 hname
  exact blames_ok _

/-- **A definition is read without any other fault**, whatever it is. -/
theorem Schema.blames_ofValue (d : Value) : Blames (Schema.ofValue d) := by
  unfold Schema.ofValue
  split
  · refine blames_bind (blames_readEach Table.blames_ofValue _ _) fun tables => ?_
    refine blames_bind (blames_readEach Function.blames_ofValue _ _) fun functions => ?_
    refine blames_bind (blames_readEach View.blames_ofValue _ _) fun views => ?_
    refine blames_bind (blames_readEach StorageBucket.blames_ofValue _ _) fun buckets => ?_
    refine blames_bind (blames_readEach CustomType.blames_ofValue _ _) fun customTypes => ?_
    exact Schema.blames_checked _
  · exact blames_schema _

/-! ### Statements -/

/-- A trace is made of steps of which only the outcome can go wrong. -/
theorem blames_trace {α β : Type} {x : Traced α} {f : α → Traced β} (hx : Blames x.outcome)
    (hf : ∀ a, Blames (f a).outcome) : Blames (x >>= f).outcome := by
  rw [Traced.outcome_bind]
  exact blames_bind hx hf

theorem blames_each {α β : Type} {f : α → Traced β} (h : ∀ a, Blames (f a).outcome)
    (as : List α) : Blames (Traced.each f as).outcome := by
  rw [Traced.outcome_each]
  exact blames_mapM h

namespace Sql

theorem blames_typeName (v : Value) : Blames (typeName v) := by
  unfold typeName
  split
  · exact blames_ok _
  · exact blames_ite (blames_ok _) (blames_misuse _)

theorem blames_wholeText (n : Int) : Blames (wholeText n) :=
  blames_ite (blames_ok _) (blames_misuse _)

theorem blames_defaultText (v : Value) : Blames (defaultText v) := by
  cases v with
  | int n => exact blames_wholeText n
  | _ => exact blames_ok _

theorem blames_defaultParts (default : Value) : Blames (defaultParts default) :=
  blames_ite (blames_ok _) (blames_map (blames_defaultText default))

theorem blames_createTable (t : Table) : Blames (createTable t).outcome := by
  have hbody : Blames (tableBody t) := by
    refine blames_bind (blames_mapM fun f => ?_) fun columns => blames_ite ?_ (blames_pure _)
    · exact blames_bind (blames_typeName f.type) fun _ => blames_bind_pure _ (blames_defaultParts _)
    · exact blames_bind_pure _ (blames_mapM (Value.blames_textOnly .wrongType))
  exact blames_trace hbody fun body => blames_trace (blames_ok ()) fun _ => blames_pure _

theorem blames_argumentList (position : Nat) (args : List Value) :
    Blames (argumentList position args) := by
  induction args generalizing position with
  | nil => exact blames_ok _
  | cons arg args ih =>
    exact blames_bind (blames_typeName arg) fun _ => blames_bind_pure _ (ih (position + 1))

theorem blames_createFunction (f : Function) : Blames (createFunction f) :=
  blames_bind (blames_argumentList 1 f.args) fun _ =>
    blames_bind_pure _ (blames_typeName f.returnType)

theorem blames_createView (v : View) : Blames (createView v) :=
  blames_bind_pure _ (v.query.blames_textOnly .noSuchPart)

theorem blames_compositeColumn (column : Value) : Blames (compositeColumn column) := by
  refine blames_bind column.blames_items fun parts => ?_
  split
  · exact blames_bind_pure _ (blames_typeName _)
  · exact blames_misuse _

theorem blames_createType (t : CustomType) : Blames (createType t) := by
  unfold createType
  simp only
  split
  · exact blames_bind_pure _ t.values.blames_items
  · exact blames_bind t.fields.blames_items fun _ =>
      blames_bind_pure _ (blames_mapM blames_compositeColumn)
  · exact blames_bind_pure _ (blames_typeName t.baseType)

theorem blames_parse (limit : Value) : Blames (FileSize.parse limit) := by
  unfold FileSize.parse
  split
  · exact blames_ok _
  · split
    · refine blames_bind_pure _ (blames_bind ?_ fun shift => ?_)
      · unfold FileSize.unitShift
        split
        · exact blames_ok _
        · exact blames_misuse _
      · simp only
        split
        · exact blames_ok _
        · exact blames_misuse _
    · exact blames_ok _
  · exact blames_ok _

theorem blames_fileSizeLimit (limit : Value) : Blames (fileSizeLimit limit).outcome := by
  unfold fileSizeLimit
  split
  · exact blames_pure _
  · refine blames_trace (blames_parse limit) fun size => ?_
    cases size with
    | some size => exact blames_wholeText size
    | none => exact blames_trace (blames_ok ()) fun _ => blames_pure _

theorem blames_mimeTypes (types : Value) : Blames (mimeTypes types) := by
  refine blames_ite (blames_pure _) (blames_ite ?_ (blames_pure _))
  exact blames_bind_pure _ types.blames_items

theorem blames_upsertBucket (b : StorageBucket) : Blames (upsertBucket b).outcome :=
  blames_trace (blames_fileSizeLimit _) fun _ =>
    blames_trace (blames_mimeTypes _) fun _ => blames_pure _

end Sql

namespace RowSecurity

theorem blames_policyName (table : Value) (p : Policy) : Blames (policyName table p) :=
  blames_ite (blames_ok _)
    (blames_map (blames_bind_pure _ (p.description.blames_textOnly .noSuchPart)))

theorem blames_createPolicies (t : Table) : Blames (createPolicies t) :=
  blames_bind_pure _ (blames_mapM fun p => blames_bind_pure _ (blames_policyName t.name p))

theorem blames_withNames (table : Value) (policies : List Policy) :
    Blames (withNames table policies) := by
  refine blames_mapM fun p => blames_bind (blames_policyName table p) fun name => ?_
  exact blames_ite (blames_pure _) (blames_misuse _)

theorem blames_policyChanges (table : Value) (old new : List Policy) :
    Blames (policyChanges table old new).outcome :=
  blames_trace (blames_withNames table old) fun _ =>
    blames_trace (blames_withNames table new) fun _ =>
      blames_trace (blames_ok ()) fun _ => blames_pure _

/-- **Two schemas are compared without any other fault.** -/
theorem blames_schemaChanges (old new : Schema) : Blames (schemaChanges old new).outcome :=
  blames_trace (blames_each (fun _ => blames_policyChanges _ _ _) _) fun _ =>
    blames_trace (blames_each (fun _ => blames_policyChanges _ _ _) _) fun _ => blames_pure _

theorem blames_schemaChangeTexts (old new : Schema) :
    Blames (schemaChangeTexts old new).outcome :=
  blames_trace (blames_schemaChanges old new) fun _ => blames_pure _

end RowSecurity

theorem Statement.blames_render (s : Statement) : Blames s.render.outcome := by
  cases s with
  | customType t => exact Sql.blames_createType t
  | table t => exact Sql.blames_createTable t
  | policies t =>
    unfold render renderPolicies
    simp only
    split
    · exact blames_trace (blames_ok ()) fun _ => RowSecurity.blames_createPolicies t
    · exact RowSecurity.blames_createPolicies t
  | function f => exact Sql.blames_createFunction f
  | view v => exact Sql.blames_createView v
  | bucket b => exact Sql.blames_upsertBucket b
  | rowSecurity t => exact blames_pure _
  | indexes t => exact blames_pure _
  | triggers t => exact blames_pure _
  | bucketPolicy b p => exact blames_pure _

/-- **Schemas are compiled without any other fault.** -/
theorem blames_compile (schemas : List Schema) : Blames (compile schemas).outcome := by
  refine blames_trace (blames_each (fun s => ?_) schemas) fun _ => blames_pure _
  refine blames_trace (blames_each Statement.blames_render _) fun _ => ?_
  exact blames_trace (blames_ok ()) fun _ => blames_pure _

end SchemaCompiler
