import SchemaCompiler.Proofs.Builder.History

/-!
# Builders that are changed in place

A step of a builder looks at it, computes and makes one change after the other.  Here the steps are
written out in this way: what has been changed before a fault stays changed, so that a step leaves a
builder as it was only because it makes its changes last.

* `Procedure` — work on a builder that is changed in place;
* `Procedure.Quiet`, `Procedure.Sure`, `Procedure.Atomic` — work that changes nothing, that does not
  fail, and that changes nothing if it fails; how they follow each other;
* `Draft.perform_eq`, `Declaration.declare_eq` — operations and declarations add what they declare;
* `InPlace.step` — the steps of a builder, in the order of what they do;
* `InPlace.step_eq` — **they come to the same as the steps of a builder**;
* `InPlace.atomic_step`, `InPlace.leave_of_error` — every step but the end of a block is atomic, and
  this one has closed its block.
-/

namespace SchemaCompiler

namespace Builder

/-- Work on a builder that is changed in place. -/
structure Procedure (α : Type) where
  run : Builder → Builder × Except Fault α

namespace Procedure

variable {α β : Type}

/-- A result, and nothing is done. -/
def pure (a : α) : Procedure α := ⟨fun b => (b, .ok a)⟩

/-- One piece of work after another; after a fault nothing is done, and nothing is undone. -/
def bind (x : Procedure α) (f : α → Procedure β) : Procedure β := ⟨fun b =>
  match x.run b with
  | (b, .ok a) => (f a).run b
  | (b, .error fault) => (b, .error fault)⟩

instance : Monad Procedure where
  pure := Procedure.pure
  bind := Procedure.bind

/-- A computation on a builder as it is. -/
def reading (f : Builder → Except Fault α) : Procedure α := ⟨fun b => (b, f b)⟩

/-- A change. -/
def changing (f : Builder → Builder) : Procedure Unit := ⟨fun b => (f b, .ok ())⟩

/-! ### Sequences -/

section Bind

variable {x : Procedure α} {f : α → Procedure β} {b : Builder}

theorem run_reading (f : Builder → Except Fault α) : (reading f).run b = (b, f b) := rfl

theorem run_bind (x : Procedure α) (f : α → Procedure β) : (x >>= f).run b =
    match x.run b with
    | (b, .ok a) => (f a).run b
    | (b, .error fault) => (b, .error fault) := rfl

theorem run_bind_of_ok {a : α} (h : (x.run b).2 = .ok a) :
    (x >>= f).run b = (f a).run (x.run b).1 := by
  rw [run_bind, show x.run b = ((x.run b).1, .ok a) from Prod.ext rfl h]

theorem run_bind_of_error {fault : Fault} (h : (x.run b).2 = .error fault) :
    (x >>= f).run b = ((x.run b).1, .error fault) := by
  rw [run_bind, show x.run b = ((x.run b).1, .error fault) from Prod.ext rfl h]

end Bind

/-- Work changes nothing. -/
def Quiet (x : Procedure α) : Prop := ∀ b, (x.run b).1 = b

/-- Work does not fail. -/
def Sure (x : Procedure α) : Prop := ∀ b fault, (x.run b).2 ≠ .error fault

/-- Work that fails has changed nothing. -/
def Atomic (x : Procedure α) : Prop := ∀ b fault, (x.run b).2 = .error fault → (x.run b).1 = b

theorem quiet_reading (f : Builder → Except Fault α) : Quiet (reading f) := fun _ => rfl

theorem sure_reading (f : Builder → α) : Sure (reading fun b => .ok (f b)) := fun _ _ => nofun

theorem sure_changing (f : Builder → Builder) : Sure (changing f) := fun _ _ => nofun

theorem sure_pure (a : α) : Sure (Pure.pure a : Procedure α) := fun _ _ => nofun

theorem Quiet.atomic {x : Procedure α} (h : Quiet x) : Atomic x := fun b _ _ => h b

theorem Sure.atomic {x : Procedure α} (h : Sure x) : Atomic x := fun b fault hfault =>
  absurd hfault (h b fault)

theorem Sure.bind {x : Procedure α} {f : α → Procedure β} (hx : Sure x) (hf : ∀ a, Sure (f a)) :
    Sure (x >>= f) := by
  intro b fault hfault
  cases hresult : (x.run b).2 with
  | error cause => exact hx b cause hresult
  | ok a =>
    rw [run_bind_of_ok hresult] at hfault
    exact hf a (x.run b).1 fault hfault

/-- Before atomic work anything may be done that changes nothing. -/
theorem Quiet.bind {x : Procedure α} {f : α → Procedure β} (hx : Quiet x)
    (hf : ∀ a, Atomic (f a)) : Atomic (x >>= f) := by
  intro b fault hfault
  cases hresult : (x.run b).2 with
  | error cause =>
    rw [run_bind_of_error hresult]
    exact hx b
  | ok a =>
    rw [run_bind_of_ok hresult] at hfault ⊢
    rw [hx b] at hfault ⊢
    exact hf a b fault hfault

/-- After atomic work anything may be done that does not fail. -/
theorem Atomic.bind {x : Procedure α} {f : α → Procedure β} (hx : Atomic x) (hf : ∀ a, Sure (f a)) :
    Atomic (x >>= f) := by
  intro b fault hfault
  cases hresult : (x.run b).2 with
  | error cause =>
    rw [run_bind_of_error hresult]
    exact hx b cause hresult
  | ok a =>
    rw [run_bind_of_ok hresult] at hfault
    exact absurd hfault (hf a (x.run b).1 fault)

end Procedure

end Builder

/-! ### What is added -/

/-- A table with one more thing declared. -/
def Table.add (t : Table) (d : Declared) : Table :=
  { t with
    fields := t.fields ++ d.field?.toList
    indexes := t.indexes ++ d.index?.toList
    policies := t.policies ++ d.policy?.toList
    triggers := t.triggers ++ d.trigger?.toList
    relationships := t.relationships ++ d.relationship?.toList
    rlsEnabled := t.rlsEnabled || d.isRowSecurity }

/-- A bucket with one more thing declared. -/
def StorageBucket.add (b : StorageBucket) (d : Declared) : StorageBucket :=
  { b with policies := b.policies ++ d.policy?.toList, options := d.setOption b.options }

/-- A draft with one more thing declared. -/
def Draft.add (d : Declared) : Draft → Draft
  | .table t => .table (t.add d)
  | .storageBucket b => .storageBucket (b.add d)

/-- A schema with one more object outside of blocks. -/
def Schema.add (s : Schema) (d : Declared) : Schema :=
  { s with
    functions := s.functions ++ d.function?.toList
    views := s.views ++ d.view?.toList
    customTypes := s.customTypes ++ d.customType?.toList }

theorem map_bind {α β γ : Type} (x : Except Fault α) (f : α → Except Fault β) (g : β → γ) :
    (x >>= f).map g = x >>= fun a => (f a).map g := by
  cases x <;> rfl

theorem map_ok {α β : Type} (a : α) (f : α → β) : (Except.ok a : Except Fault α).map f = .ok (f a) :=
  rfl

/-- What an operation does to a table is to add what it declares. -/
theorem Table.perform_eq (t : Table) {operation : Operation} (h : operation.isFor .table = true)
    (args : Arguments) :
    Draft.performOnTable t operation args = (operation.declares args).map t.add := by
  fun_cases Draft.performOnTable t operation args with
  | case6 kind name options given =>
    simp [Operation.declares, map_ok, Table.add, given]
  | case7 operation args =>
    have hnone : operation.declares args = .error (.misuse .wrongType) := by
      fun_cases Operation.declares operation args <;> grind [Operation.isFor]
    rw [hnone]
    rfl
  | _ => simp [Operation.declares, map_bind, pure_eq_ok, map_ok, Table.add]

/-- What an operation does to a bucket is to add what it declares. -/
theorem StorageBucket.perform_eq (b : StorageBucket) {operation : Operation}
    (h : operation.isFor .storageBucket = true) (args : Arguments) :
    Draft.performOnBucket b operation args = (operation.declares args).map b.add := by
  fun_cases Draft.performOnBucket b operation args with
  | case5 operation args =>
    have hnone : operation.declares args = .error (.misuse .wrongType) := by
      fun_cases Operation.declares operation args <;> grind [Operation.isFor]
    rw [hnone]
    rfl
  | _ => simp [Operation.declares, map_bind, pure_eq_ok, map_ok, StorageBucket.add]

/-- What an operation does to a draft is to add what it declares. -/
theorem Draft.perform_eq {draft : Draft} {operation : Operation}
    (h : operation.isFor draft.kind = true) (args : Arguments) :
    draft.perform operation args = (operation.declares args).map fun d => draft.add d := by
  cases draft with
  | table t =>
    rw [Draft.perform, Table.perform_eq t h args]
    cases operation.declares args <;> rfl
  | storageBucket b =>
    rw [Draft.perform, StorageBucket.perform_eq b h args]
    cases operation.declares args <;> rfl

/-- What a declaration does to a schema is to add what it declares. -/
theorem Declaration.declare_eq (s : Schema) (declaration : Declaration) (args : Arguments) :
    declaration.declare s args = (declaration.declares args).map s.add := by
  fun_cases Declaration.declare s declaration args with
  | case4 declaration args =>
    have hnone : declaration.declares args = .error (.misuse .wrongType) := by
      fun_cases Declaration.declares declaration args <;> grind
    rw [hnone]
    rfl
  | _ => simp [Declaration.declares, map_bind, pure_eq_ok, map_ok, Schema.add]

/-! ### Steps in place -/

namespace Builder.InPlace

open Procedure

/-- The block at a number, which has to be there. -/
def block (number : Nat) : Procedure Block :=
  reading fun b => match b.blocks[number]? with
    | none => .error (.misuse .noSuchPart)
    | some block => .ok block

/-- A change to the block at a number. -/
def changingBlock (number : Nat) (change : Block → Block) : Procedure Unit :=
  changing fun b => { b with blocks := b.blocks.modify number change }

/-- A change to what is recorded. -/
def recording (change : Schema → Schema) : Procedure Unit :=
  changing fun b => { b with recorded := change b.recorded }

/-- Enter a block: the block is made before it is asked whether another one is open. -/
def enter (kind : BlockKind) (call : Call) : Procedure Unit := do
  let args ← reading fun _ => kind.signature.bind call
  let name := args.values.headD .null
  let draft ← reading fun _ => Draft.start kind name args.options
  reading fun b => match b.openBlock? with
    | some outer => .error (.schema (.blockNested kind.label name.toText outer.draft.kind.label
        outer.draft.name.toText))
    | none => .ok ()
  changing fun b => { b with current := some b.blocks.length }
  changing fun b => { b with blocks := b.blocks ++ [{ draft }] }

/-- An operation on a block: what is declared is made before it is added. -/
def perform (operation : Operation) (call : Call) (number : Nat) : Procedure Unit := do
  let block ← block number
  reading fun _ => if operation.isFor block.draft.kind then .ok () else .error (.misuse .noSuchPart)
  let args ← reading fun _ => operation.signature.bind call
  reading fun _ => if block.isOpen then .ok ()
    else .error (.schema (.blockClosed operation.name block.draft.kind.label))
  let declared ← reading fun _ => operation.declares args
  changingBlock number fun block => { block with draft := block.draft.add declared }

/-- A declaration: what is declared is made before it is added. -/
def declare (declaration : Declaration) (call : Call) : Procedure Unit := do
  let args ← reading fun _ => declaration.signature.bind call
  let declared ← reading fun _ => declaration.declares args
  recording fun s => s.add declared

/-- Record a draft, which is made a table or a bucket first. -/
def record : Draft → Procedure Unit
  | .table t => do
    let t ← reading fun _ => t.checked
    recording fun s => { s with tables := s.tables ++ [t] }
  | .storageBucket bucket =>
    recording fun s => { s with storageBuckets := s.storageBuckets ++ [bucket] }

/-- Leave a block: it is closed, then there is no current one, then the draft is recorded if
`keep`.  A block that is closed already is left alone. -/
def leave (number : Nat) (keep : Bool) : Procedure Unit := do
  match ← reading fun b => .ok b.blocks[number]? with
  | some ⟨draft, true⟩ =>
    changingBlock number fun block => { block with isOpen := false }
    changing fun b => { b with current := none }
    if keep then record draft
  | _ => return

/-- A step of a builder, and what it answers. -/
def step : Step → Procedure (Option Schema)
  | .enter kind call => do
    enter kind call
    return none
  | .leave block => do
    let number ← reading fun b => .ok (b.target block)
    leave number true
    return none
  | .abandon block => do
    let number ← reading fun b => .ok (b.target block)
    leave number false
    return none
  | .perform operation call block => do
    let number ← reading fun b => .ok (b.target block)
    perform operation call number
    return none
  | .declare declaration call => do
    declare declaration call
    return none
  | .build => reading fun b => b.build.map some

/-! ### The steps of a builder -/

variable {b : Builder}

theorem enter_eq (kind : BlockKind) (call : Call) :
    (step (.enter kind call)).run b = b.changed (b.enter kind call) := by
  simp only [step, enter, Builder.enter, run_bind, run_reading]
  cases kind.signature.bind call with
  | error fault => rfl
  | ok args =>
    dsimp only [ok_bind]
    cases Draft.start kind (args.values.headD .null) args.options with
    | error fault => rfl
    | ok draft =>
      dsimp only [ok_bind]
      cases b.openBlock? <;> rfl

theorem perform_eq (operation : Operation) (call : Call) (block : Option Nat) :
    (step (.perform operation call block)).run b =
      b.changed (b.perform operation call (b.target block)) := by
  simp only [step, perform, InPlace.block, Builder.perform, Block.perform, run_bind, run_reading]
  cases hblock : b.blocks[b.target block]? with
  | none => rfl
  | some target =>
    obtain ⟨draft, isOpen⟩ := target
    dsimp only
    cases hfor : operation.isFor draft.kind with
    | false => rfl
    | true =>
      cases operation.signature.bind call with
      | error fault => rfl
      | ok args =>
        dsimp only [ok_bind]
        cases isOpen with
        | false => rfl
        | true =>
          simp only [if_true, Draft.perform_eq hfor]
          cases operation.declares args with
          | error fault => rfl
          | ok d =>
            have hset : b.blocks.modify (b.target block)
                (fun block => { block with draft := block.draft.add d }) =
                b.blocks.set (b.target block) ⟨draft.add d, true⟩ := by
              rw [List.modify_eq_set_getElem?, hblock]
              rfl
            show ({ b with blocks := b.blocks.modify _ _ }, Except.ok none) = _
            rw [hset]
            rfl

theorem declare_eq (declaration : Declaration) (call : Call) :
    (step (.declare declaration call)).run b = b.changed (b.declare declaration call) := by
  simp only [step, declare, Builder.declare, run_bind, run_reading]
  cases declaration.signature.bind call with
  | error fault => rfl
  | ok args =>
    dsimp only [ok_bind]
    rw [Declaration.declare_eq]
    cases declaration.declares args <;> rfl

theorem leave_eq (number : Nat) (keep : Bool) :
    (leave number keep).run b = b.leave number keep := by
  simp only [leave, Builder.leave, run_bind, run_reading]
  cases b.blocks[number]? with
  | none => rfl
  | some block =>
    obtain ⟨draft, _ | _⟩ := block
    · rfl
    · cases keep with
      | false => rfl
      | true =>
        cases draft with
        | table t =>
          simp only [if_true, record, Builder.record, run_bind, run_reading]
          cases t.checked <;> rfl
        | storageBucket s => rfl

/-- **The steps in place are the steps of a builder.** -/
theorem step_eq (b : Builder) (s : Step) : (step s).run b = b.step s := by
  cases s with
  | enter kind call => exact enter_eq kind call
  | leave block =>
    simp only [step, run_bind, run_reading, leave_eq, Builder.step]
    rcases b.leave (b.target block) true with ⟨next, fault | ⟨⟩⟩ <;> rfl
  | abandon block =>
    simp only [step, run_bind, run_reading, leave_eq, Builder.step]
    rcases b.leave (b.target block) false with ⟨next, fault | ⟨⟩⟩ <;> rfl
  | perform operation call block => exact perform_eq operation call block
  | declare declaration call => exact declare_eq declaration call
  | build => rfl

/-! ### Steps that fail -/

theorem atomic_enter (kind : BlockKind) (call : Call) : Atomic (enter kind call) := by
  refine (quiet_reading _).bind fun args => (quiet_reading _).bind fun draft =>
    (quiet_reading _).bind fun _ => Sure.atomic ?_
  exact (sure_changing _).bind fun _ => sure_changing _

theorem atomic_perform (operation : Operation) (call : Call) (number : Nat) :
    Atomic (perform operation call number) := by
  refine (quiet_reading _).bind fun block => (quiet_reading _).bind fun _ =>
    (quiet_reading _).bind fun args => (quiet_reading _).bind fun _ =>
    (quiet_reading _).bind fun declared => Sure.atomic ?_
  exact sure_changing _

theorem atomic_declare (declaration : Declaration) (call : Call) :
    Atomic (declare declaration call) :=
  (quiet_reading _).bind fun _ => (quiet_reading _).bind fun _ => (sure_changing _).atomic

theorem sure_abandon (number : Nat) : Sure (leave number false) := by
  refine (sure_reading _).bind fun block => ?_
  rcases block with _ | ⟨draft, _ | _⟩
  · exact sure_pure ()
  · exact sure_pure ()
  · exact (sure_changing _).bind fun _ => (sure_changing _).bind fun _ => sure_pure ()

/-- **A step that fails has changed nothing**, unless it is the end of a block. -/
theorem atomic_step {s : Step} (hs : ∀ block, s ≠ .leave block) : Atomic (step s) := by
  cases s with
  | enter kind call => exact (atomic_enter kind call).bind fun _ => sure_pure none
  | leave block => exact absurd rfl (hs block)
  | abandon block =>
    exact (quiet_reading _).bind fun number =>
      ((sure_abandon number).bind fun _ => sure_pure none).atomic
  | perform operation call block =>
    exact (quiet_reading _).bind fun number =>
      (atomic_perform operation call number).bind fun _ => sure_pure none
  | declare declaration call => exact (atomic_declare declaration call).bind fun _ => sure_pure none
  | build => exact (quiet_reading _).atomic

/-- **The end of a block fails after the block has been closed**, and only because of its table. -/
theorem leave_of_error {number : Nat} {fault : Fault}
    (h : ((leave number true).run b).2 = .error fault) :
    ∃ t, b.blocks[number]? = some ⟨.table t, true⟩ ∧ t.checked = .error fault ∧
      ((leave number true).run b).1 = b.close number := by
  rw [leave_eq, Builder.leave] at h ⊢
  split at h
  next draft hblock =>
    rw [hblock]
    cases draft with
    | table t =>
      simp only [if_true, Builder.record] at h ⊢
      cases hchecked : t.checked with
      | ok t' =>
        rw [hchecked] at h
        exact nomatch h
      | error cause =>
        rw [hchecked] at h
        obtain rfl : cause = fault := Except.error.inj h
        exact ⟨t, rfl, hchecked, rfl⟩
    | storageBucket s => exact nomatch h
  next => exact nomatch h

end Builder.InPlace

end SchemaCompiler
