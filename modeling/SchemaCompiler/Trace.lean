import SchemaCompiler.Fault

/-!
# Traced computations

A `Traced` computation ends with a result or a fault, and leaves a log of what it did up to there.
Its two halves can be reasoned about apart: the outcome of a sequence is the sequence of the
outcomes (`outcome_bind`), and logging has no part in it.
-/

namespace SchemaCompiler

/-- How much a log entry matters. -/
inductive LogLevel where
  | debug | info | warning | error
  deriving DecidableEq, Repr

/-- The name of a level. -/
def LogLevel.name : LogLevel → String
  | .debug => "DEBUG"
  | .info => "INFO"
  | .warning => "WARNING"
  | .error => "ERROR"

/-- The rank of a level: the higher, the more it matters. -/
def LogLevel.rank : LogLevel → Nat
  | .debug => 0
  | .info => 1
  | .warning => 2
  | .error => 3

/-- One line of a log. -/
structure LogEntry where
  level : LogLevel
  message : String
  deriving DecidableEq, Repr

/-- A computation with its log, in order, and its end. -/
structure Traced (α : Type) where
  log : List LogEntry
  outcome : Except Fault α

namespace Traced

variable {α β : Type}

/-- A result without a log. -/
def pure (a : α) : Traced α := ⟨[], .ok a⟩

/-- One computation after another; after a fault nothing is done or logged. -/
def bind (x : Traced α) (f : α → Traced β) : Traced β :=
  match x.outcome with
  | .error fault => ⟨x.log, .error fault⟩
  | .ok a => ⟨x.log ++ (f a).log, (f a).outcome⟩

instance : Monad Traced where
  pure := Traced.pure
  bind := Traced.bind

/-- A computation that logs nothing. -/
def quiet (outcome : Except Fault α) : Traced α := ⟨[], outcome⟩

instance : MonadLift (Except Fault) Traced := ⟨quiet⟩

/-- Log one entry. -/
def note (level : LogLevel) (message : String) : Traced Unit := ⟨[⟨level, message⟩], .ok ()⟩

/-- A computation that ends with a fault. -/
def fail (fault : Fault) : Traced α := ⟨[], .error fault⟩

/-- One computation per item, in order. -/
def each (f : α → Traced β) : List α → Traced (List β)
  | [] => pure []
  | a :: as => bind (f a) fun b => bind (each f as) fun bs => pure (b :: bs)

@[simp] theorem outcome_pure (a : α) : (Pure.pure a : Traced α).outcome = .ok a := rfl

@[simp] theorem outcome_quiet (e : Except Fault α) : (quiet e).outcome = e := rfl

@[simp] theorem outcome_lift (e : Except Fault α) : (liftM e : Traced α).outcome = e := rfl

@[simp] theorem outcome_note (level : LogLevel) (message : String) :
    (note level message).outcome = .ok () := rfl

/-- The outcome of a sequence is the sequence of the outcomes. -/
@[simp] theorem outcome_bind (x : Traced α) (f : α → Traced β) :
    (x >>= f).outcome = x.outcome >>= fun a => (f a).outcome := by
  cases h : x.outcome <;> simp [Bind.bind, Traced.bind, Except.bind, h]

/-- The outcome for a list of items is the list of the outcomes. -/
@[simp] theorem outcome_each (f : α → Traced β) (as : List α) :
    (each f as).outcome = as.mapM fun a => (f a).outcome := by
  induction as with
  | nil => rfl
  | cons a as ih =>
    have step : each f (a :: as) = (f a >>= fun b => each f as >>= fun bs => Pure.pure (b :: bs)) :=
      rfl
    simp only [step, outcome_bind, ih, outcome_pure, List.mapM_cons]
    rfl

end Traced
end SchemaCompiler
