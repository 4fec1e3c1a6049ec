import SchemaCompiler.Proofs.Builder.InPlace
import SchemaCompiler.Proofs.Builder.Invariant

/-!
# Steps that fail

A run goes on after a step that failed as if the step had not been taken; after the end of a block
whose table is refused it goes on as if the block had been abandoned.

* `Step.inFailure` — what a step comes to if it fails;
* `Builder.answers` — what the steps of a run answer;
* `Builder.Survives` — what a builder keeps of a step that failed;
* `Builder.run_failed` — **a step that fails changes nothing but what it has to**, whatever run has
  led to it and whatever run goes on from it;
* `Builder.run_successes` — a run is that of its steps that did not fail.
-/

namespace SchemaCompiler

theorem map_eq_error {α β : Type} {x : Except Fault α} {f : α → β} {fault : Fault} :
    x.map f = .error fault ↔ x = .error fault := by
  cases x <;> simp [Except.map]

/-- What a step comes to if it fails: the end of a block to leaving it, and every other step to
nothing. -/
def Step.inFailure : Step → List Step
  | .leave block => [.abandon block]
  | _ => []

theorem Step.inFailure_eq_nil {s : Step} (hs : ∀ block, s ≠ .leave block) : s.inFailure = [] := by
  cases s with
  | leave block => exact absurd rfl (hs block)
  | _ => rfl

namespace Builder

variable {b : Builder}

/-- What the steps of a run answer, one after the other. -/
def answers (b : Builder) : List Step → List (Except Fault (Option Schema))
  | [] => []
  | s :: steps => (b.step s).2 :: (b.step s).1.answers steps

theorem run_append (b : Builder) (first second : List Step) :
    b.run (first ++ second) = (b.run first).run second := List.foldl_append ..

theorem answers_append (b : Builder) (first second : List Step) :
    b.answers (first ++ second) = b.answers first ++ (b.run first).answers second := by
  induction first generalizing b with
  | nil => rfl
  | cons s first ih => exact congrArg _ (ih (b.step s).1)

/-- Closing a block keeps what was declared in all blocks. -/
theorem drafts_close (b : Builder) (number : Nat) :
    (b.close number).blocks.map Block.draft = b.blocks.map Block.draft := by
  refine List.ext_getElem? fun place => ?_
  rw [close, List.getElem?_map, List.getElem?_map, List.getElem?_modify]
  cases b.blocks[place]? with
  | none => rfl
  | some block =>
    show some (Block.draft (if _ then _ else _)) = some block.draft
    split <;> rfl

/-- The end of a block that fails has closed the block, as if it had been abandoned. -/
theorem step_leave_of_error {block : Option Nat} {fault : Fault}
    (h : (b.step (.leave block)).2 = .error fault) :
    ∃ t, b.blocks[b.target block]? = some ⟨.table t, true⟩ ∧ t.checked = .error fault ∧
      (b.step (.leave block)).1 = b.close (b.target block) ∧
      b.step (.abandon block) = (b.close (b.target block), .ok none) := by
  have hleave : ((InPlace.leave (b.target block) true).run b).2 = .error fault := by
    rw [InPlace.leave_eq]
    exact map_eq_error.1 h
  obtain ⟨t, hblock, hchecked, hclosed⟩ := InPlace.leave_of_error hleave
  rw [InPlace.leave_eq] at hclosed
  refine ⟨t, hblock, hchecked, hclosed, ?_⟩
  rw [Builder.step, leave, hblock]
  rfl

/-- **A step that fails comes to what it comes to in failure.** -/
theorem step_of_error {s : Step} {fault : Fault} (h : (b.step s).2 = .error fault) :
    (b.step s).1 = b.run s.inFailure := by
  by_cases hs : ∀ block, s ≠ .leave block
  · rw [Step.inFailure_eq_nil hs]
    rw [← InPlace.step_eq] at h ⊢
    exact InPlace.atomic_step hs b fault h
  · push Not at hs
    obtain ⟨block, rfl⟩ := hs
    obtain ⟨t, -, -, hclosed, habandoned⟩ := step_leave_of_error h
    rw [hclosed, Step.inFailure, run, List.foldl_cons, habandoned]
    rfl

/-- What a builder keeps of a step that failed: all that was recorded and all that was declared in
its blocks.  It is as it was, but the end of a block that is refused, which can only be that of the
open block with an invalid table, has closed this block. -/
structure Survives (b : Builder) (s : Step) (fault : Fault) (next : Builder) : Prop where
  recorded : next.recorded = b.recorded
  drafts : next.blocks.map Block.draft = b.blocks.map Block.draft
  unchanged : (∀ block, s ≠ .leave block) → next = b
  closed : ∀ block, s = .leave block → ∃ t, t.checked = .error fault ∧
    b.openBlock? = some ⟨.table t, true⟩ ∧ b.current = some (b.target block) ∧
    next = b.close (b.target block)

theorem Matches.survives {h : History} (hm : b.Matches h) {s : Step} {fault : Fault}
    (hfails : (b.step s).2 = .error fault) : b.Survives s fault (b.step s).1 := by
  by_cases hs : ∀ block, s ≠ .leave block
  · have hsame : (b.step s).1 = b := by
      rw [step_of_error hfails, Step.inFailure_eq_nil hs]
      rfl
    rw [hsame]
    exact ⟨rfl, rfl, fun _ => rfl, fun block hblock => absurd hblock (hs block)⟩
  · push Not at hs
    obtain ⟨block, rfl⟩ := hs
    obtain ⟨t, hblock, hchecked, hclosed, -⟩ := step_leave_of_error hfails
    obtain ⟨before, v, blocks, hnumber, ho⟩ := hm.openAt hblock
    have hcurrent : b.current = some (b.target block) := by rw [ho.current_eq, hnumber]
    rw [hclosed]
    refine ⟨rfl, drafts_close b _, fun hs => absurd rfl (hs block), ?_⟩
    rintro block' hsame
    cases hsame
    refine ⟨t, hchecked, ?_, hcurrent, rfl⟩
    rw [openBlock?, hcurrent]
    exact hblock

/-- **A step that fails changes nothing but what it has to.**  Whatever run has led to it: made in
place it comes to the same, all that was recorded and declared is kept, and the builder is as it was
but for a block that has been closed.  Whatever run goes on from it: the builder and all answers are
those of a run in which the step was not taken, or the block was abandoned. -/
theorem run_failed (before : List Step) (s : Step) (after : List Step) {fault : Fault}
    (h : ((InPlace.step s).run (run {} before)).2 = .error fault) :
    (InPlace.step s).run (run {} before) = (run {} before).step s ∧
    Survives (run {} before) s fault ((InPlace.step s).run (run {} before)).1 ∧
    run {} (before ++ s :: after) = run {} (before ++ s.inFailure ++ after) ∧
    answers {} (before ++ s :: after) =
      answers {} before ++ .error fault :: answers (run {} (before ++ s.inFailure)) after := by
  rw [InPlace.step_eq] at h ⊢
  have hnext : ((run {} before).step s).1 = run {} (before ++ s.inFailure) := by
    rw [run_append, step_of_error h]
  refine ⟨rfl, (matches_empty.run before).survives h, ?_, ?_⟩
  · rw [run_append, run_append {} (before ++ s.inFailure), ← hnext]
    rfl
  · rw [answers_append, answers, h, hnext]

/-- A block in which two fields have one name. -/
def twins : List Step :=
  [.enter .table { positional := [.text "notes"] },
    .perform .field { positional := [.text "id", .text "uuid"] } none,
    .perform .field { positional := [.text "id", .text "uuid"] } none]

/-- Its table is refused at the end, and a schema is built after that as if the block had been
abandoned. -/
theorem run_twins :
    ((InPlace.step (.leave none)).run (run {} twins)).2 =
        .error (.schema (.duplicateField "notes" "id")) ∧
      answers {} (twins ++ [.leave none, .build]) = answers {} twins ++
        .error (.schema (.duplicateField "notes" "id")) ::
          answers (run {} (twins ++ [.abandon none])) [.build] := by
  have hfails : ((InPlace.step (.leave none)).run (run {} twins)).2 =
      .error (.schema (.duplicateField "notes" "id")) :=
    (map_eq_error (f := fun _ => ())).1 (by decide +kernel)
  exact ⟨hfails, (run_failed twins (.leave none) [.build] hfails).2.2.2⟩

/-! ### Runs without what failed -/

/-- The steps of a run, and what those that fail come to. -/
def successes (b : Builder) : List Step → List Step
  | [] => []
  | s :: steps =>
    (match (b.step s).2 with
      | .ok _ => [s]
      | .error _ => s.inFailure) ++ (b.step s).1.successes steps

theorem answers_inFailure {s : Step} {fault : Fault} (h : (b.step s).2 = .error fault) :
    ∀ answer ∈ b.answers s.inFailure, answer = .ok none := by
  cases s with
  | leave block =>
    obtain ⟨t, -, -, -, habandoned⟩ := step_leave_of_error h
    rw [Step.inFailure, answers, habandoned]
    exact fun answer hmem => List.mem_singleton.1 hmem
  | _ => exact nofun

/-- **A run is that of its steps that did not fail**, and none of those fails. -/
theorem run_successes (b : Builder) (steps : List Step) :
    b.run (b.successes steps) = b.run steps ∧
      ∀ answer ∈ b.answers (b.successes steps), ∃ result, answer = .ok result := by
  induction steps generalizing b with
  | nil => exact ⟨rfl, nofun⟩
  | cons s steps ih =>
    obtain ⟨hrun, hanswers⟩ := ih (b.step s).1
    rw [successes]
    cases hstep : (b.step s).2 with
    | ok result => exact ⟨hrun, List.forall_mem_cons.2 ⟨⟨result, hstep⟩, hanswers⟩⟩
    | error fault =>
      dsimp only
      rw [run_append, answers_append, ← step_of_error hstep]
      refine ⟨hrun, fun answer hmem => ?_⟩
      rcases List.mem_append.1 hmem with hleft | hrest
      · exact ⟨none, answers_inFailure hstep answer hleft⟩
      · exact hanswers answer hrest

end Builder
end SchemaCompiler
