import SchemaCompiler.Builder.Basic
import SchemaCompiler.Proofs.Outcome

/-!
# The history of a builder

What a run of builder steps has declared, told without the builder: from the steps alone, and from
whether each of them went well.

* `Declared` — what one operation or declaration declares;
* `Operation.declares`, `Declaration.declares` — what it makes of its arguments;
* `Visit` — a block that was entered: the operations that went well in it, and how it was left;
* `Visit.table?`, `Visit.storageBucket?` — **what a visit should leave behind**: the table or bucket
  of a block that was left normally, holding what its operations declared;
* `History` — all visits in the order of their entering, and all declarations;
* `Draft.exists_declares`, `Declaration.exists_declares` — what a builder itself adds is what the
  step declares.
-/

namespace SchemaCompiler

/-! ### What is declared -/

/-- What one operation or declaration declares. -/
inductive Declared where
  | field (f : Field)
  | index (i : Index)
  | policy (p : Policy)
  | trigger (g : Trigger)
  | relationship (r : Relationship)
  | rowSecurity
  | isPublic (value : Value)
  | fileSizeLimit (limit : Value)
  | mimeTypes (types : List Value)
  | function (f : Function)
  | view (v : View)
  | customType (c : CustomType)

namespace Declared

@[simp] def field? : Declared → Option Field
  | .field f => some f
  | _ => none

@[simp] def index? : Declared → Option Index
  | .index i => some i
  | _ => none

@[simp] def policy? : Declared → Option Policy
  | .policy p => some p
  | _ => none

@[simp] def trigger? : Declared → Option Trigger
  | .trigger g => some g
  | _ => none

@[simp] def relationship? : Declared → Option Relationship
  | .relationship r => some r
  | _ => none

@[simp] def function? : Declared → Option Function
  | .function f => some f
  | _ => none

@[simp] def view? : Declared → Option View
  | .view v => some v
  | _ => none

@[simp] def customType? : Declared → Option CustomType
  | .customType c => some c
  | _ => none

/-- Whether row level security is declared. -/
@[simp] def isRowSecurity : Declared → Bool
  | .rowSecurity => true
  | _ => false

/-- The options of a bucket after a declaration. -/
@[simp] def setOption (o : BucketOptions) : Declared → BucketOptions
  | .isPublic value => { o with isPublic := value }
  | .fileSizeLimit limit => { o with fileSizeLimit := limit }
  | .mimeTypes types => { o with mimeTypes := .list types }
  | _ => o

end Declared

/-- What an operation declares with its arguments. -/
def Operation.declares : Operation → Arguments → Except Fault Declared
  | .field, ⟨[name, type], options⟩ => do
    let options ← OptionSet.ofValue FieldOptions (namedOptions options) (phrase "field" name)
    return .field { name, type, options }
  | .enableRls, _ => .ok .rowSecurity
  | .policy, ⟨[action, description, condition], options⟩ => do
    return .policy (← Draft.declaredPolicy action description condition options)
  | .index, ⟨[columns], options⟩ => do
    let fields ← columns.items
    let options ← OptionSet.ofValue IndexOptions (namedOptions options)
      ("index on " ++ columns.toText)
    return .index (← Index.make (.list fields) options)
  | .trigger, ⟨[name, events, body], options⟩ => do
    let events ← events.items
    let options ← OptionSet.ofValue TriggerOptions (namedOptions options) (phrase "trigger" name)
    return .trigger (← Trigger.make name events body options)
  | .relationship kind, ⟨[name], options⟩ =>
    .ok (.relationship
      { kind := some kind, name, options := options.map fun o => (.text o.1, o.2) })
  | .setPublic, ⟨[value], _⟩ => .ok (.isPublic value)
  | .fileSizeLimit, ⟨[limit], _⟩ => .ok (.fileSizeLimit limit)
  | .allowedMimeTypes, ⟨[types], _⟩ => do return .mimeTypes (← types.items)
  | _, _ => .error (.misuse .wrongType)

/-- What a declaration declares with its arguments. -/
def Declaration.declares : Declaration → Arguments → Except Fault Declared
  | .function, ⟨[name, args, returnType, body], options⟩ => do
    let args ← args.items
    let options ← OptionSet.ofValue FunctionOptions (namedOptions options)
      (phrase "function" name)
    return .function { name, args, returnType, body, options }
  | .view, ⟨[name, query], options⟩ => do
    let options ← OptionSet.ofValue ViewOptions (namedOptions options) (phrase "view" name)
    return .view { name, query, options }
  | .customType, ⟨[name, kind], options⟩ => do
    Declaration.checkTypeOptions name options
    let option (key : String) := (options.lookup key).getD .null
    return .customType (← CustomType.make name kind (option "values") (option "fields")
      (option "base_type") (option "constraint"))
  | _, _ => .error (.misuse .wrongType)

/-- The table of a name and options that holds what was declared. -/
def Table.declaring (t : Table) (declared : List Declared) : Table where
  name := t.name
  fields := declared.filterMap Declared.field?
  indexes := declared.filterMap Declared.index?
  policies := declared.filterMap Declared.policy?
  triggers := declared.filterMap Declared.trigger?
  relationships := declared.filterMap Declared.relationship?
  rlsEnabled := declared.any Declared.isRowSecurity
  options := t.options

/-- The bucket of a name that holds what was declared; the last word on an option counts. -/
def StorageBucket.declaring (b : StorageBucket) (declared : List Declared) : StorageBucket where
  name := b.name
  policies := declared.filterMap Declared.policy?
  options := declared.foldl Declared.setOption b.options

/-- The draft that holds what was declared. -/
def Draft.declaring : Draft → List Declared → Draft
  | .table t, declared => .table (t.declaring declared)
  | .storageBucket b, declared => .storageBucket (b.declaring declared)

/-- The schema that holds what was declared outside of blocks, next to the tables and buckets. -/
def Schema.declaring (tables : List Table) (storageBuckets : List StorageBucket)
    (declared : List Declared) : Schema where
  tables
  storageBuckets
  functions := declared.filterMap Declared.function?
  views := declared.filterMap Declared.view?
  customTypes := declared.filterMap Declared.customType?

theorem Table.declaring_append (t : Table) (declared : List Declared) (d : Declared) :
    t.declaring (declared ++ [d]) =
      { t.declaring declared with
        fields := (t.declaring declared).fields ++ d.field?.toList
        indexes := (t.declaring declared).indexes ++ d.index?.toList
        policies := (t.declaring declared).policies ++ d.policy?.toList
        triggers := (t.declaring declared).triggers ++ d.trigger?.toList
        relationships := (t.declaring declared).relationships ++ d.relationship?.toList
        rlsEnabled := (t.declaring declared).rlsEnabled || d.isRowSecurity } := by
  simp only [declaring, List.filterMap_append, List.any_append, List.any_cons, List.any_nil,
    Bool.or_false]
  cases d <;> rfl

/-- **An operation on a table adds what it declares.** -/
theorem Table.exists_declares {t next : Table} {declared : List Declared} {operation : Operation}
    {args : Arguments}
    (h : Draft.performOnTable (t.declaring declared) operation args = .ok next) :
    ∃ d, operation.declares args = .ok d ∧ next = t.declaring (declared ++ [d]) := by
  simp only [Table.declaring_append]
  unfold Draft.performOnTable at h
  split at h
  next =>
    obtain ⟨options, hoptions, h⟩ := bind_eq_ok.1 h
    rw [Operation.declares, hoptions, ← Except.ok.inj h]
    exact ⟨_, rfl, by simp⟩
  next =>
    rw [Operation.declares, ← Except.ok.inj h]
    exact ⟨_, rfl, by simp⟩
  next =>
    obtain ⟨policy, hpolicy, h⟩ := bind_eq_ok.1 h
    rw [Operation.declares, hpolicy, ← Except.ok.inj h]
    exact ⟨_, rfl, by simp⟩
  next =>
    obtain ⟨fields, hfields, h⟩ := bind_eq_ok.1 h
    obtain ⟨options, hoptions, h⟩ := bind_eq_ok.1 h
    obtain ⟨index, hindex, h⟩ := bind_eq_ok.1 h
    rw [Operation.declares, hfields, ok_bind, hoptions, ok_bind, hindex, ← Except.ok.inj h]
    exact ⟨_, rfl, by simp⟩
  next =>
    obtain ⟨events, hevents, h⟩ := bind_eq_ok.1 h
    obtain ⟨options, hoptions, h⟩ := bind_eq_ok.1 h
    obtain ⟨trigger, htrigger, h⟩ := bind_eq_ok.1 h
    rw [Operation.declares, hevents, ok_bind, hoptions, ok_bind, htrigger, ← Except.ok.inj h]
    exact ⟨_, rfl, by simp⟩
  next =>
    rw [Operation.declares, ← Except.ok.inj h]
    exact ⟨_, rfl, by simp⟩
  next => cases h

/-- **An operation on a bucket adds what it declares.** -/
theorem StorageBucket.exists_declares {b next : StorageBucket} {declared : List Declared}
    {operation : Operation} {args : Arguments}
    (h : Draft.performOnBucket (b.declaring declared) operation args = .ok next) :
    ∃ d, operation.declares args = .ok d ∧ next = b.declaring (declared ++ [d]) := by
  simp only [StorageBucket.declaring, List.filterMap_append, List.foldl_append]
  unfold Draft.performOnBucket at h
  split at h
  next =>
    obtain ⟨policy, hpolicy, h⟩ := bind_eq_ok.1 h
    rw [Operation.declares, hpolicy, ← Except.ok.inj h]
    exact ⟨_, rfl, by simp [StorageBucket.declaring]⟩
  next =>
    rw [Operation.declares, ← Except.ok.inj h]
    exact ⟨_, rfl, by simp [StorageBucket.declaring]⟩
  next =>
    rw [Operation.declares, ← Except.ok.inj h]
    exact ⟨_, rfl, by simp [StorageBucket.declaring]⟩
  next =>
    obtain ⟨types, htypes, h⟩ := bind_eq_ok.1 h
    rw [Operation.declares, htypes, ← Except.ok.inj h]
    exact ⟨_, rfl, by simp [StorageBucket.declaring]⟩
  next => cases h

/-- **An operation adds to a draft what it declares.** -/
theorem Draft.exists_declares {start next : Draft} {declared : List Declared}
    {operation : Operation} {args : Arguments}
    (h : (start.declaring declared).perform operation args = .ok next) :
    ∃ d, operation.declares args = .ok d ∧ next = start.declaring (declared ++ [d]) := by
  cases start with
  | table t =>
    obtain ⟨t', ht, rfl⟩ := map_eq_ok.1 h
    obtain ⟨d, hd, rfl⟩ := Table.exists_declares ht
    exact ⟨d, hd, rfl⟩
  | storageBucket b =>
    obtain ⟨b', hb, rfl⟩ := map_eq_ok.1 h
    obtain ⟨d, hd, rfl⟩ := StorageBucket.exists_declares hb
    exact ⟨d, hd, rfl⟩

/-- **A declaration adds to a schema what it declares.** -/
theorem Declaration.exists_declares {tables : List Table} {buckets : List StorageBucket}
    {next : Schema} {declared : List Declared} {declaration : Declaration} {args : Arguments}
    (h : declaration.declare (.declaring tables buckets declared) args = .ok next) :
    ∃ d, declaration.declares args = .ok d ∧
      next = .declaring tables buckets (declared ++ [d]) := by
  simp only [Schema.declaring, List.filterMap_append]
  unfold Declaration.declare at h
  split at h
  next =>
    obtain ⟨args, hargs, h⟩ := bind_eq_ok.1 h
    obtain ⟨options, hoptions, h⟩ := bind_eq_ok.1 h
    rw [Declaration.declares, hargs, ok_bind, hoptions, ← Except.ok.inj h]
    exact ⟨_, rfl, by simp [Schema.declaring]⟩
  next =>
    obtain ⟨options, hoptions, h⟩ := bind_eq_ok.1 h
    rw [Declaration.declares, hoptions, ← Except.ok.inj h]
    exact ⟨_, rfl, by simp [Schema.declaring]⟩
  next =>
    obtain ⟨_, hcheck, h⟩ := bind_eq_ok.1 h
    obtain ⟨type, htype, h⟩ := bind_eq_ok.1 h
    rw [Declaration.declares, hcheck, ok_bind]
    dsimp only
    rw [htype, ← Except.ok.inj h]
    exact ⟨_, rfl, by simp [Schema.declaring]⟩
  next => cases h

/-! ### Visits -/

/-- How a block was left. -/
inductive Ending where
  | normally | abandoned

/-- A block that was entered: what it was entered with, the operations that went well in it, and
how it was left if it was. -/
structure Visit where
  kind : BlockKind
  call : Call
  operations : List (Operation × Call) := []
  ending : Option Ending := none

namespace Visit

/-- The empty draft that a block is entered with. -/
def start (v : Visit) : Except Fault Draft := do
  let args ← v.kind.signature.bind v.call
  Draft.start v.kind (args.values.headD .null) args.options

/-- What the operations declared, in the order of the calls. -/
def declared (v : Visit) : List Declared :=
  v.operations.filterMap fun o => (o.1.signature.bind o.2 >>= o.1.declares).toOption

/-- The draft at the end of the operations. -/
def draft? (v : Visit) : Option Draft := v.start.toOption.map (·.declaring v.declared)

/-- The block as the visit describes it. -/
def block? (v : Visit) : Option Block :=
  v.draft?.map fun draft => { draft, isOpen := v.ending.isNone }

/-- The table that a visit leaves behind: that of a block that was left normally, if no two of its
fields have one name. -/
def table? (v : Visit) : Option Table :=
  match v.ending, v.draft? with
  | some .normally, some (.table t) => t.checked.toOption
  | _, _ => none

/-- The bucket that a visit leaves behind: that of a block that was left normally. -/
def storageBucket? (v : Visit) : Option StorageBucket :=
  match v.ending, v.draft? with
  | some .normally, some (.storageBucket b) => some b
  | _, _ => none

/-- The visit with one more operation. -/
def perform (operation : Operation) (call : Call) (v : Visit) : Visit :=
  { v with operations := v.operations ++ [(operation, call)] }

/-- The visit after its block has been left; it cannot be left twice. -/
def leave (ending : Ending) (v : Visit) : Visit := { v with ending := v.ending.or (some ending) }

end Visit

/-! ### The history of a run -/

/-- All blocks that were entered, in the order of their entering, and all declarations. -/
structure History where
  visits : List Visit := []
  declarations : List (Declaration × Call) := []

namespace History

/-- What was declared outside of blocks, in the order of the calls. -/
def declared (h : History) : List Declared :=
  h.declarations.filterMap fun d => (d.1.signature.bind d.2 >>= d.1.declares).toOption

/-- The history with a change to the block that a step is about. -/
def visit (h : History) (block : Option Nat) (change : Visit → Visit) : History :=
  { h with visits := h.visits.modify (block.getD (h.visits.length - 1)) change }

/-- The history after one more step, which went well or did not.  A step that did not go well has
no part in it, except that a block is left also if it cannot be recorded. -/
def add (h : History) : Step → Bool → History
  | .enter kind call, true => { h with visits := h.visits ++ [{ kind, call }] }
  | .leave block, _ => h.visit block (Visit.leave .normally)
  | .abandon block, _ => h.visit block (Visit.leave .abandoned)
  | .perform operation call block, true => h.visit block (Visit.perform operation call)
  | .declare declaration call, true =>
    { h with declarations := h.declarations ++ [(declaration, call)] }
  | _, _ => h

end History

/-- The history of a run: of each step it takes only whether it went well. -/
def Builder.history (b : Builder) (h : History) : List Step → History
  | [] => h
  | s :: steps => (b.step s).1.history (h.add s (b.step s).2.isOk) steps

end SchemaCompiler
