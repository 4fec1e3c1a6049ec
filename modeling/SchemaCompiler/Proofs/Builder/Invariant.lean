import SchemaCompiler.Proofs.Builder.History
import SchemaCompiler.Proofs.Schema.Distinct

/-!
# What a builder has recorded

A builder remembers its blocks, the current one among them, and the objects that were recorded.  How
these hang together is told by the history of the run alone.

* `Builder.Matches` — a builder and a history: each block holds what was declared in its visit, the
  block of the last visit is the current one while it has not been left, and what is recorded is
  what the visits have left behind;
* `Builder.Matches.step` — every step keeps this, whether it goes well or not; each kind of step has
  its own lemma before;
* `Builder.Matches.accepts_iff` — the current block accepts operations, and no other does;
* `Builder.run_faithful` — **what holds after every run**, and what building comes to then.
-/

namespace SchemaCompiler

namespace Visit

theorem draft?_eq_some {v : Visit} {draft : Draft} :
    v.draft? = some draft ↔ ∃ start, v.start = .ok start ∧ draft = start.declaring v.declared := by
  unfold draft?
  cases v.start with
  | ok start => simp [Except.toOption, eq_comm]
  | error fault => simp [Except.toOption]

theorem block?_eq_some {v : Visit} {block : Block} :
    v.block? = some block ↔ v.draft? = some block.draft ∧ block.isOpen = v.ending.isNone := by
  obtain ⟨draft, isOpen⟩ := block
  unfold block?
  rw [Option.map_eq_some_iff]
  constructor
  · rintro ⟨draft', hdraft, heq⟩
    cases heq
    exact ⟨hdraft, rfl⟩
  · rintro ⟨hdraft, rfl⟩
    exact ⟨draft, hdraft, rfl⟩

theorem table?_eq_none {v : Visit} (h : v.ending = none) : v.table? = none := by
  rw [table?, h]

theorem storageBucket?_eq_none {v : Visit} (h : v.ending = none) : v.storageBucket? = none := by
  rw [storageBucket?, h]

theorem leave_of_left {v : Visit} (h : v.ending ≠ none) (ending : Ending) :
    v.leave ending = v := by
  obtain ⟨kind, call, operations, _ | e⟩ := v
  · exact absurd rfl h
  · rfl

/-- One more operation adds what it declares. -/
theorem draft?_perform {v : Visit} {start : Draft} (hstart : v.start = .ok start)
    {operation : Operation} {call : Call} {d : Declared}
    (hd : operation.signature.bind call >>= operation.declares = .ok d) :
    (v.perform operation call).draft? = some (start.declaring (v.declared ++ [d])) := by
  have hdeclared : (v.perform operation call).declared = v.declared ++ [d] := by
    simp [declared, perform, hd, Except.toOption]
  exact draft?_eq_some.2 ⟨start, hstart, by rw [hdeclared]⟩

section Leave

variable {v : Visit} (h : v.ending = none)
include h

theorem ending_leave (ending : Ending) : (v.leave ending).ending = some ending := by
  rw [leave, h]
  rfl

/-- What a table leaves behind is the table, if its fields have different names. -/
theorem left_table {t : Table} (hdraft : v.draft? = some (.table t)) :
    (v.leave .normally).table? = t.checked.toOption ∧
      (v.leave .normally).storageBucket? = none := by
  have hdraft' : (v.leave .normally).draft? = some (.table t) := hdraft
  simp only [table?, storageBucket?, ending_leave h, hdraft', and_self]

/-- What a bucket leaves behind is the bucket. -/
theorem left_storageBucket {s : StorageBucket} (hdraft : v.draft? = some (.storageBucket s)) :
    (v.leave .normally).table? = none ∧ (v.leave .normally).storageBucket? = some s := by
  have hdraft' : (v.leave .normally).draft? = some (.storageBucket s) := hdraft
  simp only [table?, storageBucket?, ending_leave h, hdraft', and_self]

/-- An abandoned block leaves nothing behind. -/
theorem left_abandoned :
    (v.leave .abandoned).table? = none ∧ (v.leave .abandoned).storageBucket? = none := by
  simp only [table?, storageBucket?, ending_leave h, and_self]

end Leave

end Visit

/-- Between blocks all blocks have been left; otherwise the last of them has not, and is the
current one. -/
inductive Phase (current : Option Nat) (visits : List Visit) : Prop
  | between (hcurrent : current = none) (hleft : ∀ v ∈ visits, v.ending ≠ none)
  | within (before : List Visit) (v : Visit) (hvisits : visits = before ++ [v])
    (hleft : ∀ u ∈ before, u.ending ≠ none) (hopen : v.ending = none)
    (hcurrent : current = some before.length)

/-- A builder is as its history tells. -/
structure Builder.Matches (b : Builder) (h : History) : Prop where
  blocks : b.blocks.map some = h.visits.map Visit.block?
  phase : Phase b.current h.visits
  recorded : b.recorded = .declaring (h.visits.filterMap Visit.table?)
    (h.visits.filterMap Visit.storageBucket?) h.declared

namespace Builder

variable {b next : Builder} {h : History}

theorem matches_empty : Matches {} {} := ⟨rfl, .between rfl nofun, rfl⟩

theorem Matches.length_eq (hm : b.Matches h) : b.blocks.length = h.visits.length := by
  simpa using congrArg List.length hm.blocks

theorem Matches.target_eq (hm : b.Matches h) (block : Option Nat) :
    b.target block = block.getD (h.visits.length - 1) := by
  rw [target, hm.length_eq]

/-- The block at a number is that of the visit. -/
theorem Matches.getElem? (hm : b.Matches h) {number : Nat} {block : Block}
    (hblock : b.blocks[number]? = some block) :
    ∃ v, h.visits[number]? = some v ∧ v.block? = some block := by
  have hget := congrArg (·[number]?) hm.blocks
  simp only [List.getElem?_map, hblock, Option.map_some] at hget
  obtain ⟨v, hv, hvblock⟩ := Option.map_eq_some_iff.1 hget.symm
  exact ⟨v, hv, hvblock⟩

/-- A builder within a block: the visit of the open block is the last one, all before have been
left, and the block is the current one. -/
structure OpenAt (b : Builder) (h : History) (draft : Draft) (before : List Visit) (v : Visit)
    (blocks : List Block) : Prop where
  visits_eq : h.visits = before ++ [v]
  blocks_eq : b.blocks = blocks ++ [⟨draft, true⟩]
  before_eq : blocks.map some = before.map Visit.block?
  draft_eq : v.draft? = some draft
  ending_eq : v.ending = none
  left : ∀ u ∈ before, u.ending ≠ none
  current_eq : b.current = some before.length

theorem OpenAt.length_eq {draft : Draft} {before : List Visit} {v : Visit} {blocks : List Block}
    (ho : b.OpenAt h draft before v blocks) : blocks.length = before.length := by
  simpa using congrArg List.length ho.before_eq

/-- **A block that is open is the last one.** -/
theorem Matches.openAt (hm : b.Matches h) {number : Nat} {draft : Draft}
    (hblock : b.blocks[number]? = some ⟨draft, true⟩) :
    ∃ before v blocks, number = before.length ∧ b.OpenAt h draft before v blocks := by
  obtain ⟨v, hv, hvblock⟩ := hm.getElem? hblock
  obtain ⟨hdraft, hopen⟩ := Visit.block?_eq_some.1 hvblock
  have hending : v.ending = none := by simpa using hopen.symm
  cases hm.phase with
  | between _ hleft => exact absurd hending (hleft v (List.mem_of_getElem? hv))
  | within before last hvisits hleft _ hcurrent =>
    -- All visits but the last have been left, so an open one cannot stand among them.
    have hplace : number = before.length ∧ last = v := by
      rw [hvisits] at hv
      rcases Nat.lt_or_ge number before.length with hlt | hge
      · rw [List.getElem?_append_left hlt] at hv
        exact absurd hending (hleft v (List.mem_of_getElem? hv))
      · rw [List.getElem?_append_right hge, List.getElem?_singleton] at hv
        split at hv
        · exact ⟨by omega, Option.some.inj hv⟩
        · exact nomatch hv
    obtain ⟨hnumber, rfl⟩ := hplace
    have hmap := hm.blocks
    rw [hvisits, List.map_append, List.map_singleton, hvblock] at hmap
    obtain ⟨blocks, rest, hblocks, hbefore, hrest⟩ := List.map_eq_append_iff.1 hmap
    obtain ⟨block, rfl, hself⟩ := List.map_eq_singleton_iff.1 hrest
    rw [Option.some.inj hself] at hblocks
    exact ⟨before, last, blocks, hnumber, hvisits, hblocks, hbefore, hdraft, hending, hleft,
      hcurrent⟩

/-! ### What the steps do -/

/-- An operation that goes well is one on the block that is open, which takes what it declares. -/
theorem exists_of_perform {operation : Operation} {call : Call} {number : Nat}
    (hperform : b.perform operation call number = .ok next) :
    ∃ draft args draft', b.blocks[number]? = some ⟨draft, true⟩ ∧
      operation.signature.bind call = .ok args ∧ draft.perform operation args = .ok draft' ∧
      next = { b with blocks := b.blocks.set number ⟨draft', true⟩ } := by
  unfold perform at hperform
  split at hperform
  next => exact nomatch hperform
  next block hblock =>
    obtain ⟨block', hblock', hnext⟩ := bind_eq_ok.1 hperform
    obtain ⟨draft, isOpen⟩ := block
    unfold Block.perform at hblock'
    split at hblock'
    next => exact nomatch hblock'
    next =>
      obtain ⟨args, hargs, hblock'⟩ := bind_eq_ok.1 hblock'
      split at hblock'
      next hopen =>
        obtain ⟨draft', hdraft', hself⟩ := bind_eq_ok.1 hblock'
        have hopen' : isOpen = true := hopen
        subst hopen'
        rw [← Except.ok.inj hself] at hnext
        exact ⟨draft, args, draft', hblock, hargs, hdraft', (Except.ok.inj hnext).symm⟩
      next => exact nomatch hblock'

theorem Matches.perform (hm : b.Matches h) {operation : Operation} {call : Call}
    {block : Option Nat} (hperform : b.perform operation call (b.target block) = .ok next) :
    next.Matches (h.visit block (Visit.perform operation call)) := by
  obtain ⟨draft, args, draft', hblock, hargs, hdraft', rfl⟩ := exists_of_perform hperform
  obtain ⟨before, v, blocks, hnumber, ho⟩ := hm.openAt hblock
  obtain ⟨start, hstart, rfl⟩ := Visit.draft?_eq_some.1 ho.draft_eq
  obtain ⟨d, hd, rfl⟩ := Draft.exists_declares hdraft'
  have hopen : (v.perform operation call).ending = none := ho.ending_eq
  have hblock' : (v.perform operation call).block? =
      some ⟨start.declaring (v.declared ++ [d]), true⟩ :=
    Visit.block?_eq_some.2
      ⟨Visit.draft?_perform hstart (by rw [hargs, ok_bind, hd]), by rw [hopen]; rfl⟩
  have hvisits : (h.visit block (Visit.perform operation call)).visits =
      before ++ [v.perform operation call] := by
    rw [History.visit, ← hm.target_eq, hnumber]
    simp [ho.visits_eq, List.modify_eq_set_getElem?]
  constructor
  · rw [hvisits, ho.blocks_eq, hnumber, ← ho.length_eq]
    simp [ho.before_eq, hblock']
  · exact .within before _ hvisits ho.left hopen ho.current_eq
  -- The block is open before and after, and an open block leaves nothing behind yet.
  · show b.recorded = _
    rw [hvisits, hm.recorded, ho.visits_eq]
    simp only [List.filterMap_append, List.filterMap_cons, List.filterMap_nil,
      Visit.table?_eq_none ho.ending_eq, Visit.table?_eq_none hopen,
      Visit.storageBucket?_eq_none ho.ending_eq, Visit.storageBucket?_eq_none hopen]
    rfl

/-- A block is entered with an empty draft. -/
theorem declaring_nil_of_start {kind : BlockKind} {name : Value} {options : List (String × Value)}
    {draft : Draft} (hdraft : Draft.start kind name options = .ok draft) :
    draft.declaring [] = draft := by
  cases kind with
  | table =>
    obtain ⟨o, -, hself⟩ := bind_eq_ok.1 hdraft
    rw [← Except.ok.inj hself]
    rfl
  | storageBucket =>
    obtain ⟨o, -, hself⟩ := bind_eq_ok.1 hdraft
    rw [← Except.ok.inj hself]
    rfl

/-- A block can be entered between blocks. -/
theorem exists_of_enter {kind : BlockKind} {call : Call} (henter : b.enter kind call = .ok next) :
    ∃ draft, ({ kind, call } : Visit).start = .ok draft ∧ draft.declaring [] = draft ∧
      b.openBlock? = none ∧
      next = { b with blocks := b.blocks ++ [{ draft }], current := some b.blocks.length } := by
  obtain ⟨args, hargs, henter⟩ := bind_eq_ok.1 henter
  obtain ⟨draft, hdraft, henter⟩ := bind_eq_ok.1 henter
  refine ⟨draft, ?_, declaring_nil_of_start hdraft, ?_⟩
  · rw [Visit.start, hargs, ok_bind, hdraft]
  · split at henter
    next => exact nomatch henter
    next hnone => exact ⟨hnone, (Except.ok.inj henter).symm⟩

theorem Matches.enter (hm : b.Matches h) {kind : BlockKind} {call : Call}
    (henter : b.enter kind call = .ok next) :
    next.Matches { h with visits := h.visits ++ [{ kind, call }] } := by
  obtain ⟨draft, hstart, hdraft, hidle, rfl⟩ := exists_of_enter henter
  have hblock : ({ kind, call } : Visit).block? = some { draft } :=
    Visit.block?_eq_some.2 ⟨Visit.draft?_eq_some.2 ⟨draft, hstart, hdraft.symm⟩, rfl⟩
  have hleft : ∀ v ∈ h.visits, v.ending ≠ none := by
    cases hm.phase with
    | between _ hleft => exact hleft
    | within before v hvisits _ _ hcurrent =>
      have hlt : before.length < b.blocks.length := by
        rw [hm.length_eq, hvisits]
        simp
      rw [openBlock?, hcurrent, Option.bind_some, List.getElem?_eq_getElem hlt] at hidle
      exact nomatch hidle
  constructor
  · rw [List.map_append, List.map_append, hm.blocks, List.map_singleton, List.map_singleton, hblock]
  · exact .within h.visits _ rfl hleft rfl (congrArg some hm.length_eq)
  · show b.recorded = _
    rw [hm.recorded]
    simp [Visit.table?_eq_none, Visit.storageBucket?_eq_none, History.declared]

/-- Leaving a block that has been left already does nothing. -/
theorem Matches.visit_leave_of_left (hm : b.Matches h) {block : Option Nat}
    (hleft : ∀ draft, b.blocks[b.target block]? ≠ some ⟨draft, true⟩) (ending : Ending) :
    h.visit block (Visit.leave ending) = h := by
  have hself : h.visits.modify (b.target block) (Visit.leave ending) = h.visits := by
    refine List.ext_getElem? fun number => ?_
    rw [List.getElem?_modify]
    cases hv : h.visits[number]? with
    | none => rfl
    | some v =>
      by_cases hnumber : b.target block = number
      · subst hnumber
        have hget := congrArg (·[b.target block]?) hm.blocks
        simp only [List.getElem?_map, hv, Option.map_some] at hget
        obtain ⟨⟨draft, isOpen⟩, hblock, hvblock⟩ := Option.map_eq_some_iff.1 hget
        have hopen : isOpen = v.ending.isNone := (Visit.block?_eq_some.1 hvblock.symm).2
        have hending : v.ending ≠ none := by
          intro hnone
          rw [hnone] at hopen
          exact hleft draft (by rw [hblock, hopen]; rfl)
        simp [Visit.leave_of_left hending]
      · simp [hnumber]
  rw [History.visit, ← hm.target_eq, hself]

/-- The builder after the open block has been left, with what its visit leaves behind. -/
theorem Matches.close (hm : b.Matches h) {draft : Draft} {before : List Visit} {v : Visit}
    {blocks : List Block} (ho : b.OpenAt h draft before v blocks) {block : Option Nat}
    (htarget : b.target block = before.length) (ending : Ending) :
    Matches { b.close before.length with
        recorded := { b.recorded with
          tables := b.recorded.tables ++ (v.leave ending).table?.toList
          storageBuckets := b.recorded.storageBuckets ++ (v.leave ending).storageBucket?.toList } }
      (h.visit block (Visit.leave ending)) := by
  have hvisits : (h.visit block (Visit.leave ending)).visits = before ++ [v.leave ending] := by
    rw [History.visit, ← hm.target_eq, htarget]
    simp [ho.visits_eq, List.modify_eq_set_getElem?]
  have hending : (v.leave ending).ending = some ending := by rw [Visit.leave, ho.ending_eq]; rfl
  have hblock : (v.leave ending).block? = some ⟨draft, false⟩ :=
    Visit.block?_eq_some.2 ⟨ho.draft_eq, by rw [hending]; rfl⟩
  constructor
  · rw [hvisits, Builder.close, ho.blocks_eq, ← ho.length_eq]
    simp [List.modify_eq_set_getElem?, ho.before_eq, hblock]
  · refine .between rfl fun u hu => ?_
    rw [hvisits, List.mem_append, List.mem_singleton] at hu
    rcases hu with hu | rfl
    · exact ho.left u hu
    · rw [hending]
      exact nofun
  · dsimp only
    rw [hvisits, hm.recorded, ho.visits_eq]
    simp only [List.filterMap_append, List.filterMap_cons, List.filterMap_nil,
      Visit.table?_eq_none ho.ending_eq, Visit.storageBucket?_eq_none ho.ending_eq,
      List.append_nil]
    cases (v.leave ending).table? <;> cases (v.leave ending).storageBucket? <;> rfl

/-- **A block that is left is recorded or not as its visit tells.** -/
theorem Matches.leave (hm : b.Matches h) (block : Option Nat) (keep : Bool) :
    (b.leave (b.target block) keep).1.Matches
      (h.visit block (Visit.leave (if keep then .normally else .abandoned))) := by
  unfold Builder.leave
  split
  next draft hblock =>
    obtain ⟨before, v, blocks, htarget, ho⟩ := hm.openAt hblock
    have hclose := fun ending => hm.close ho htarget ending
    rw [htarget]
    cases keep with
    | false =>
      have hclosed := hclose .abandoned
      obtain ⟨htable, hbucket⟩ := Visit.left_abandoned ho.ending_eq
      rw [htable, hbucket, Option.toList_none, List.append_nil, Option.toList_none,
        List.append_nil] at hclosed
      exact hclosed
    | true =>
      have hclosed := hclose .normally
      cases draft with
      | table t =>
        obtain ⟨htable, hbucket⟩ := Visit.left_table ho.ending_eq ho.draft_eq
        rw [htable, hbucket, Option.toList_none, List.append_nil] at hclosed
        -- A table that is refused stays unrecorded, but its block is closed all the same.
        cases hchecked : t.checked with
        | ok t' =>
          rw [hchecked] at hclosed
          rw [if_pos rfl, record, hchecked]
          exact hclosed
        | error fault =>
          rw [hchecked, Except.toOption, Option.toList_none, List.append_nil] at hclosed
          rw [if_pos rfl, record, hchecked]
          exact hclosed
      | storageBucket s =>
        obtain ⟨htable, hbucket⟩ := Visit.left_storageBucket ho.ending_eq ho.draft_eq
        rw [htable, hbucket, Option.toList_none, List.append_nil] at hclosed
        exact hclosed
  next hleft =>
    rw [hm.visit_leave_of_left fun draft hblock => hleft draft hblock]
    exact hm

theorem Matches.declare (hm : b.Matches h) {declaration : Declaration} {call : Call}
    (hdeclare : b.declare declaration call = .ok next) :
    next.Matches { h with declarations := h.declarations ++ [(declaration, call)] } := by
  obtain ⟨args, hargs, hdeclare⟩ := bind_eq_ok.1 hdeclare
  obtain ⟨recorded, hrecorded, hnext⟩ := bind_eq_ok.1 hdeclare
  rw [← Except.ok.inj hnext]
  rw [hm.recorded] at hrecorded
  obtain ⟨d, hd, rfl⟩ := Declaration.exists_declares hrecorded
  have hdeclared : ({ h with declarations := h.declarations ++ [(declaration, call)] } :
      History).declared = h.declared ++ [d] := by
    simp [History.declared, hargs, ok_bind, hd, Except.toOption]
  exact ⟨hm.blocks, hm.phase, by rw [hdeclared]⟩

/-! ### Runs -/

/-- **Every step keeps a builder as its history tells**, whether it goes well or not. -/
theorem Matches.step (hm : b.Matches h) (s : Step) :
    (b.step s).1.Matches (h.add s (b.step s).2.isOk) := by
  cases s with
  | enter kind call =>
    simp only [Builder.step]
    cases henter : b.enter kind call with
    | ok next => exact hm.enter henter
    | error fault => exact hm
  | leave block => exact hm.leave block true
  | abandon block => exact hm.leave block false
  | perform operation call block =>
    simp only [Builder.step]
    cases hperform : b.perform operation call (b.target block) with
    | ok next => exact hm.perform hperform
    | error fault => exact hm
  | declare declaration call =>
    simp only [Builder.step]
    cases hdeclare : b.declare declaration call with
    | ok next => exact hm.declare hdeclare
    | error fault => exact hm
  | build => exact hm

theorem Matches.run (hm : b.Matches h) (steps : List Step) :
    (b.run steps).Matches (b.history h steps) := by
  induction steps generalizing b h with
  | nil => exact hm
  | cons s steps ih => exact ih (hm.step s)

/-! ### The current block -/

/-- The current block is open. -/
theorem Matches.exists_open (hm : b.Matches h) {number : Nat} (hcurrent : b.current = some number) :
    ∃ draft, b.blocks[number]? = some ⟨draft, true⟩ := by
  cases hm.phase with
  | between hnone _ => exact nomatch hnone.symm.trans hcurrent
  | within before v hvisits _ hopen hsome =>
    rw [hsome, Option.some.injEq] at hcurrent
    have hlt : number < b.blocks.length := by
      rw [hm.length_eq, hvisits, ← hcurrent]
      simp
    have hblock := List.getElem?_eq_getElem hlt
    obtain ⟨v', hv', hvblock⟩ := hm.getElem? hblock
    rw [hvisits, ← hcurrent, List.getElem?_concat_length, Option.some.injEq] at hv'
    have hisOpen : b.blocks[number].isOpen = true := by
      rw [(Visit.block?_eq_some.1 hvblock).2, ← hv', hopen]
      rfl
    exact ⟨b.blocks[number].draft, by rw [hblock, ← hisOpen]⟩

/-- Whether the block at a number accepts operations. -/
def Accepts (b : Builder) (number : Nat) : Prop :=
  ∃ operation call next, b.perform operation call number = .ok next

/-- **The current block accepts operations, and no other does.** -/
theorem Matches.accepts_iff (hm : b.Matches h) (number : Nat) :
    b.Accepts number ↔ b.current = some number := by
  constructor
  · rintro ⟨operation, call, next, hperform⟩
    obtain ⟨draft, -, -, hblock, -⟩ := exists_of_perform hperform
    obtain ⟨before, v, blocks, rfl, ho⟩ := hm.openAt hblock
    exact ho.current_eq
  · intro hcurrent
    obtain ⟨draft, hblock⟩ := hm.exists_open hcurrent
    cases draft with
    | table t =>
      let secured : Block := ⟨.table { t with rlsEnabled := true }, true⟩
      refine ⟨.enableRls, {}, { b with blocks := b.blocks.set number secured }, ?_⟩
      rw [Builder.perform, hblock]
      rfl
    | storageBucket s =>
      let opened : Block :=
        ⟨.storageBucket { s with options := { s.options with isPublic := .bool true } }, true⟩
      refine ⟨.setPublic, {}, { b with blocks := b.blocks.set number opened }, ?_⟩
      rw [Builder.perform, hblock]
      rfl

/-- A builder without a current block has no open one. -/
theorem Matches.openBlock?_eq_none_iff (hm : b.Matches h) :
    b.openBlock? = none ↔ b.current = none := by
  rw [openBlock?]
  cases hcurrent : b.current with
  | none => simp
  | some number =>
    obtain ⟨draft, hblock⟩ := hm.exists_open hcurrent
    rw [Option.bind_some, hblock]
    simp

/-! ### Building -/

/-- A table that is recorded has been checked. -/
theorem Matches.checked_of_mem (hm : b.Matches h) {t : Table} (ht : t ∈ b.recorded.tables) :
    ∃ declared : Table, declared.checked = .ok t := by
  rw [hm.recorded] at ht
  obtain ⟨v, -, hv⟩ := List.mem_filterMap.1 ht
  unfold Visit.table? at hv
  split at hv
  next declared _ _ =>
    cases hchecked : declared.checked with
    | ok kept =>
      rw [hchecked] at hv
      exact ⟨declared, hchecked.trans (congrArg Except.ok (Option.some.inj hv))⟩
    | error fault =>
      rw [hchecked] at hv
      exact nomatch hv
  next => exact nomatch hv

theorem Matches.build_eq (hm : b.Matches h) (hcurrent : b.current = none) :
    b.build = b.recorded.checked := by
  rw [build, hm.openBlock?_eq_none_iff.2 hcurrent]

theorem Matches.build_of_open (hm : b.Matches h) (hcurrent : b.current ≠ none) :
    ∃ cause, b.build = .error (.schema cause) := by
  rw [build]
  cases hopen : b.openBlock? with
  | none => exact absurd (hm.openBlock?_eq_none_iff.1 hopen) hcurrent
  | some block => exact ⟨_, rfl⟩

/-- What a run leaves behind, told from its history. -/
structure Faithful (b : Builder) (h : History) : Prop extends b.Matches h where
  /-- The current block accepts operations, and no other does. -/
  accepts : ∀ number, b.Accepts number ↔ b.current = some number
  /-- No table is recorded that has two fields of one name. -/
  fields : ∀ t ∈ b.recorded.tables, Value.Different (t.fields.map Field.name)
  /-- Building is refused within a block, and where a table name is repeated. -/
  refused : (∃ cause, b.build = .error (.schema cause)) ↔
    b.current ≠ none ∨ Value.Repeats (b.recorded.tables.map Table.name)
  /-- Where all names of tables can be keys, that is where two tables share a name. -/
  refused_of_keys : (∀ t ∈ b.recorded.tables, t.name.isHashable = true) →
    ((∃ cause, b.build = .error (.schema cause)) ↔
      b.current ≠ none ∨ ¬Value.Different (b.recorded.tables.map Table.name))
  /-- Building gives the recorded objects where no block is open, all names of tables can be keys
  and no two of them are the same. -/
  built : ∀ s, b.build = .ok s ↔ b.current = none ∧
    (∀ t ∈ b.recorded.tables, t.name.isHashable = true) ∧
      Value.Different (b.recorded.tables.map Table.name) ∧ s = b.recorded
  /-- It has no other outcome, except on a name that cannot be a key. -/
  misused : ∀ fault, b.build = .error fault →
    (∃ cause, fault = .schema cause) ∨ fault = .misuse .wrongType

/-- **The state of a builder is what its history tells.** -/
theorem run_faithful (steps : List Step) :
    (run {} steps).Faithful (history {} {} steps) := by
  have hm := matches_empty.run steps
  generalize hb : run {} steps = b at hm ⊢
  have hrefused : (∃ cause, b.build = .error (.schema cause)) ↔
      b.current ≠ none ∨ Value.Repeats (b.recorded.tables.map Table.name) := by
    by_cases hcurrent : b.current = none
    · rw [hm.build_eq hcurrent, Schema.checked_eq_error_iff, or_iff_right (not_not.2 hcurrent)]
    · exact iff_of_true (hm.build_of_open hcurrent) (Or.inl hcurrent)
  refine { hm with accepts := hm.accepts_iff, fields := ?_, refused := hrefused,
                   refused_of_keys := ?_, built := ?_, misused := ?_ }
  · intro t ht
    obtain ⟨declared, hchecked⟩ := hm.checked_of_mem ht
    obtain ⟨-, hdifferent, rfl⟩ := Table.checked_eq_ok_iff.1 hchecked
    exact hdifferent
  · intro hkeys
    rw [hrefused, Value.repeats_iff (List.forall_mem_map.2 hkeys)]
  · intro s
    by_cases hcurrent : b.current = none
    · rw [hm.build_eq hcurrent, Schema.checked_eq_ok_iff, and_iff_right hcurrent]
    · obtain ⟨cause, hbuild⟩ := hm.build_of_open hcurrent
      rw [hbuild]
      exact iff_of_false nofun fun hs => hcurrent hs.1
  · intro fault hbuild
    by_cases hcurrent : b.current = none
    · rw [hm.build_eq hcurrent] at hbuild
      exact Schema.fault_of_checked hbuild
    · obtain ⟨cause, hopen⟩ := hm.build_of_open hcurrent
      rw [hopen, Except.error.injEq] at hbuild
      exact Or.inl ⟨cause, hbuild.symm⟩

/-- A list that names a table cannot be a key: one block has been left and no two tables share a
name, and still building neither is refused nor gives what was recorded. -/
theorem build_unhashable :
    let b := run {} [.enter .table ⟨[.list []], []⟩, .leave none]
    b.current = none ∧ Value.Different (b.recorded.tables.map Table.name) ∧
      b.build = .error (.misuse .wrongType) :=
  ⟨rfl, List.pairwise_singleton _ _, rfl⟩

end Builder
end SchemaCompiler
