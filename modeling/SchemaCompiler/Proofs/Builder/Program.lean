import SchemaCompiler.Builder.Basic
import SchemaCompiler.Proofs.Schema.Reading

/-!
# Programs of builder steps

A program declares a schema with a builder, one step after the other, and stops at the first step
that fails.  Any definition can be written as such a program.

* `Builder.execute` — the builder at the end of a program, if no step failed;
* `execute_each` — **what every part of a program keeps up, the whole program keeps up**;
* `Program.ofDefinition` — the program for a definition;
* `step_enter`, `step_perform`, `step_leave_table`, `step_leave_bucket`, `step_declare` — what the
  steps do to a builder when they are in place.
-/

namespace SchemaCompiler

namespace Builder

/-! ### Running a program -/

/-- The builder after a program, or the fault of the first step that fails. -/
def execute (b : Builder) : List Step → Except Fault Builder
  | [] => .ok b
  | s :: steps =>
    match b.step s with
    | (next, .ok _) => execute next steps
    | (_, .error fault) => .error fault

theorem execute_cons {b next : Builder} {s : Step} {answer : Option Schema}
    (h : b.step s = (next, .ok answer)) (steps : List Step) :
    b.execute (s :: steps) = next.execute steps := by
  rw [execute, h]

theorem execute_append {b middle : Builder} {first : List Step}
    (h : b.execute first = .ok middle) (second : List Step) :
    b.execute (first ++ second) = middle.execute second := by
  induction first generalizing b with
  | nil => rw [← Except.ok.inj h, List.nil_append]
  | cons s first ih =>
    rw [execute] at h
    split at h
    next next answer hstep => rw [List.cons_append, execute_cons hstep, ih h]
    next => exact nomatch h

/-- A program that does not fail takes all of its steps. -/
theorem run_of_execute {b last : Builder} {steps : List Step} (h : b.execute steps = .ok last) :
    b.run steps = last := by
  induction steps generalizing b with
  | nil => exact Except.ok.inj h
  | cons s steps ih =>
    rw [execute] at h
    split at h
    next next answer hstep =>
      rw [run, List.foldl_cons, hstep, ← run]
      exact ih h
    next => exact nomatch h

/-- **What the part for each item keeps up, the parts for all items keep up**: `P` says what the
builder is like after the items that are done. -/
theorem execute_each {α : Type} (P : List α → Builder → Prop) {read : Value → Except Fault α}
    {items : List Value} {found : List α} (hread : items.mapM read = .ok found)
    {steps : Value → List Step}
    (hstep : ∀ d ∈ items, ∀ x, read d = .ok x → ∀ done b, P done b →
      ∃ next, b.execute (steps d) = .ok next ∧ P (done ++ [x]) next)
    {b : Builder} (hb : P [] b) :
    ∃ next, b.execute (items.flatMap steps) = .ok next ∧ P found next := by
  have hall := mapM_eq_ok.1 hread
  clear hread
  have hrest : ∀ done b, P done b →
      ∃ next, b.execute (items.flatMap steps) = .ok next ∧ P (done ++ found) next := by
    clear hb b
    induction hall with
    | nil =>
      intro done b hb
      exact ⟨b, rfl, by rwa [List.append_nil]⟩
    | @cons d x items found hx _ ih =>
      intro done b hb
      obtain ⟨middle, hmiddle, hP⟩ := hstep d List.mem_cons_self x hx done b hb
      obtain ⟨next, hnext, hP⟩ :=
        ih (fun d hd => hstep d (List.mem_cons_of_mem _ hd)) (done ++ [x]) middle hP
      refine ⟨next, ?_, by rwa [List.append_assoc] at hP⟩
      rw [List.flatMap_cons, execute_append hmiddle, hnext]
  exact hrest [] b hb

/-! ### Steps in place -/

/-- A builder in whose last block a draft is being declared. -/
def within (b : Builder) (draft : Draft) : Builder :=
  { b with blocks := b.blocks ++ [{ draft }], current := some b.blocks.length }

/-- A builder after a block in which a draft has been declared and recorded. -/
def after (b : Builder) (draft : Draft) (recorded : Schema) : Builder :=
  { blocks := b.blocks ++ [{ draft, isOpen := false }], current := none, recorded }

theorem openBlock?_eq_none {b : Builder} (h : b.current = none) : b.openBlock? = none := by
  rw [openBlock?, h]
  rfl

theorem target_within (b : Builder) (draft : Draft) :
    (b.within draft).target none = b.blocks.length := by
  simp [target, within]

theorem getElem?_within (b : Builder) (draft : Draft) :
    (b.within draft).blocks[b.blocks.length]? = some { draft } := by
  simp [within]

theorem step_enter {b : Builder} (hb : b.current = none) {kind : BlockKind} {call : Call}
    {args : Arguments} {draft : Draft} (hbind : kind.signature.bind call = .ok args)
    (hdraft : Draft.start kind (args.values.headD .null) args.options = .ok draft) :
    b.step (.enter kind call) = (b.within draft, .ok none) := by
  have henter : b.enter kind call = .ok (b.within draft) := by
    rw [enter, hbind, ok_bind]
    dsimp only
    rw [hdraft, ok_bind, openBlock?_eq_none hb]
    rfl
  rw [step, henter]
  rfl

theorem step_perform (b : Builder) {draft next : Draft} {operation : Operation} {call : Call}
    {args : Arguments} (hkind : operation.isFor draft.kind = true)
    (hbind : operation.signature.bind call = .ok args)
    (hperform : draft.perform operation args = .ok next) :
    (b.within draft).step (.perform operation call none) = (b.within next, .ok none) := by
  have hblock : Block.perform { draft } operation call = .ok { draft := next } := by
    simp [Block.perform, hkind, hbind, ok_bind, hperform, pure_eq_ok]
  have hresult : (b.within draft).perform operation call b.blocks.length =
      .ok (b.within next) := by
    rw [perform, getElem?_within]
    dsimp only
    rw [hblock, ok_bind]
    simp [within, pure_eq_ok]
  rw [step, target_within, hresult]
  rfl

theorem close_within (b : Builder) (draft : Draft) :
    (b.within draft).close b.blocks.length = b.after draft b.recorded := by
  simp [close, within, after, List.modify_eq_set_getElem?]

theorem step_leave_table (b : Builder) {t : Table} (ht : t.checked = .ok t) :
    (b.within (.table t)).step (.leave none) =
      (b.after (.table t) { b.recorded with tables := b.recorded.tables ++ [t] }, .ok none) := by
  rw [step, target_within, leave, getElem?_within]
  dsimp only
  rw [close_within, record, ht]
  rfl

theorem step_leave_bucket (b : Builder) (s : StorageBucket) :
    (b.within (.storageBucket s)).step (.leave none) =
      (b.after (.storageBucket s)
        { b.recorded with storageBuckets := b.recorded.storageBuckets ++ [s] }, .ok none) := by
  rw [step, target_within, leave, getElem?_within]
  dsimp only
  rw [close_within]
  rfl

theorem step_declare (b : Builder) {declaration : Declaration} {call : Call} {args : Arguments}
    {s : Schema} (hbind : declaration.signature.bind call = .ok args)
    (hdeclare : declaration.declare b.recorded args = .ok s) :
    b.step (.declare declaration call) = ({ b with recorded := s }, .ok none) := by
  rw [step, declare, hbind, ok_bind, hdeclare]
  rfl

end Builder

/-! ### Options by name -/

/-- The names of a set of options are different, and none is a short form. -/
class PlainNames (α : Type) [OptionSet α] : Prop where
  nodup : (OptionSet.names α).Nodup
  plain : ∀ name ∈ OptionSet.names α, OptionSet.nameOfKey name = name

instance : PlainNames FieldOptions := ⟨by decide, by decide⟩
instance : PlainNames IndexOptions := ⟨by decide, by decide⟩
instance : PlainNames PolicyOptions := ⟨by decide, by decide⟩
instance : PlainNames TriggerOptions := ⟨by decide, by decide⟩
instance : PlainNames TableOptions := ⟨by decide, by decide⟩
instance : PlainNames FunctionOptions := ⟨by decide, by decide⟩
instance : PlainNames ViewOptions := ⟨by decide, by decide⟩
instance : PlainNames BucketOptions := ⟨by decide, by decide⟩

/-- Where options are given as a set and not as a mapping, the set has all options of its kind. -/
def HasKeywords (α : Type) [OptionSet α] : Value → Prop
  | .record _ attributes => attributes.map Prod.fst = OptionSet.names α
  | _ => True

/-- The keys under which an operation takes options: those that are not reserved, and that are not
the names of parameters. -/
def Signature.Takes (s : Signature) (key : String) : Prop :=
  key ≠ Signature.reservedName ∧ Parameter.named key s.parameters = false

instance (s : Signature) (key : String) : Decidable (s.Takes key) :=
  inferInstanceAs (Decidable (_ ∧ _))

/-- An operation takes its arguments by position and its options by name. -/
theorem bind_eq_ok_of_takes {s : Signature} {positional : List Value}
    {options : List (String × Value)} (hlength : positional.length = s.parameters.length)
    (hoptions : s.takesOptions = true) (htakes : ∀ o ∈ options, s.Takes o.1) :
    s.bind ⟨positional, options⟩ = .ok ⟨positional, options⟩ := by
  have hall : options.filter (fun a => !Parameter.named a.1 s.parameters) = options :=
    List.filter_eq_self.2 fun o ho => by rw [(htakes o ho).2, Bool.not_false]
  have hnone : (options.any fun a => a.1 == Signature.reservedName ||
      Parameter.named a.1 s.parameters) = false := by
    rw [List.any_eq_false]
    intro o ho
    rw [(htakes o ho).2, Bool.or_false, beq_iff_eq]
    exact (htakes o ho).1
  rw [Signature.bind]
  dsimp only
  rw [hlength, if_neg (Nat.lt_irrefl _), List.take_length, List.drop_length, hall, hnone, hoptions]
  simp [Parameter.fill, ok_bind, pure_eq_ok]

section Keywords

variable {α : Type} [OptionSet α] {value : Value} {owner : String} {options : α}

/-- **Options given by name are read as the options that they were taken from.**  The keys that
give them name options. -/
theorem keywords_spec [PlainNames α] (h : OptionSet.ofValue α value owner = .ok options)
    (hvalue : HasKeywords α value) :
    OptionSet.ofValue α (namedOptions value.keywords) owner = .ok options ∧
      ∀ o ∈ value.keywords, OptionSet.nameOfKey o.1 ∈ OptionSet.names α := by
  cases value with
  | null => exact ⟨h, nofun⟩
  | mapping es =>
    obtain ⟨given, hgiven, hoptions⟩ := bind_eq_ok.1 h
    obtain ⟨named, rfl, hnames, -⟩ := OptionSet.settings_eq_ok_iff.1 hgiven
    rw [keywords_mapping]
    exact ⟨h, hnames⟩
  | record kind attributes =>
    have hplain : ∀ o ∈ attributes, OptionSet.nameOfKey o.1 = o.1 := fun o ho =>
      PlainNames.plain o.1 (hvalue ▸ List.mem_map_of_mem ho)
    have hnames : ∀ o ∈ attributes, OptionSet.nameOfKey o.1 ∈ OptionSet.names α := fun o ho => by
      rw [hplain o ho, ← hvalue]
      exact List.mem_map_of_mem ho
    refine ⟨?_, hnames⟩
    have hsettings : OptionSet.settings (OptionSet.names α) owner (attributes.map entryOf) =
        .ok attributes := by
      refine OptionSet.settings_eq_ok_iff.2 ⟨attributes, rfl, hnames, ?_⟩
      calc attributes = attributes.map id := (List.map_id attributes).symm
        _ = attributes.map fun o => (OptionSet.nameOfKey o.1, o.2) :=
          List.map_congr_left fun o ho => Prod.ext (hplain o ho).symm rfl
    have hlast : OptionSet.lastOf attributes = (attributes.lookup ·) := by
      funext name
      exact lookup_of_perm (List.reverse_perm _).symm (hvalue ▸ PlainNames.nodup) name
    have hread : OptionSet.ofValue α (namedOptions attributes) owner =
        OptionSet.ofSettings (attributes.lookup ·) := by
      rw [← hlast]
      exact (congrArg (· >>= fun given => OptionSet.ofSettings (OptionSet.lastOf given))
        hsettings).trans (ok_bind _ _)
    rw [OptionSet.ofValue] at h
    split at h
    next => exact hread.trans h
    next => exact nomatch h
  | _ => exact nomatch h

theorem ofValue_keywords [PlainNames α] (h : OptionSet.ofValue α value owner = .ok options)
    (hvalue : HasKeywords α value) :
    OptionSet.ofValue α (namedOptions value.keywords) owner = .ok options :=
  (keywords_spec h hvalue).1

theorem mem_of_keyword [PlainNames α] (h : OptionSet.ofValue α value owner = .ok options)
    (hvalue : HasKeywords α value) {o : String × Value} (ho : o ∈ value.keywords) :
    o.1 ∈ "for" :: OptionSet.names α := by
  have hname := (keywords_spec h hvalue).2 o ho
  by_cases hfor : o.1 = "for"
  · exact hfor ▸ List.mem_cons_self
  · rw [OptionSet.nameOfKey, if_neg hfor] at hname
    exact List.mem_cons_of_mem _ hname

theorem bind_keywords [PlainNames α] (h : OptionSet.ofValue α value owner = .ok options)
    (hvalue : HasKeywords α value) {s : Signature} {positional : List Value}
    (hlength : positional.length = s.parameters.length) (hoptions : s.takesOptions = true)
    (htakes : ∀ key ∈ "for" :: OptionSet.names α, s.Takes key) :
    s.bind ⟨positional, value.keywords⟩ = .ok ⟨positional, value.keywords⟩ :=
  bind_eq_ok_of_takes hlength hoptions fun _ ho => htakes _ (mem_of_keyword h hvalue ho)

end Keywords

/-! ### The program for a definition -/

namespace Program

/-- The options of a definition. -/
def optionsOf (d : Value) : Value := d.settingOr "options" .null

/-- An operation in the open block, with the options of a definition. -/
def perform (operation : Operation) (positional : List Value) (d : Value) : Step :=
  .perform operation ⟨positional, (optionsOf d).keywords⟩ none

/-- A declaration with the options of a definition. -/
def declare (declaration : Declaration) (positional : List Value) (d : Value) : Step :=
  .declare declaration ⟨positional, (optionsOf d).keywords⟩

/-- The steps for a field. -/
def field (d : Value) : List Step :=
  [perform .field [d.settingOr "name" .null, d.settingOr "type" .null] d]

/-- The steps for an index. -/
def index (d : Value) : List Step := [perform .index [d.settingOr "fields" .null] d]

/-- The steps for a policy. -/
def policy (d : Value) : List Step :=
  [perform .policy [d.settingOr "action" .null, d.settingOr "description" (.text ""),
    d.settingOr "condition" .null] d]

/-- The steps for a trigger. -/
def trigger (d : Value) : List Step :=
  [perform .trigger [d.settingOr "name" .null, d.settingOr "events" .null,
    d.settingOr "body" .null] d]

/-- The steps for a relationship: the operation is chosen by its kind. -/
def relationship (d : Value) : List Step :=
  match Vocabulary.read RelationshipKind (d.settingOr "kind" .null) "relationship kind" with
  | .ok (some kind) => [perform (.relationship kind) [d.settingOr "name" .null] d]
  | _ => []

/-- The step that enters a block. -/
def enter (kind : BlockKind) (d : Value) : Step :=
  .enter kind ⟨[d.settingOr "name" .null], (optionsOf d).keywords⟩

/-- The step that switches row level security on, if the table has it. -/
def security (d : Value) : List Step :=
  if (d.settingOr "rls_enabled" (.bool false)).isTrue then [.perform .enableRls {} none] else []

/-- The steps for a table. -/
def table (d : Value) : List Step :=
  enter .table d :: (security d ++
    ((d.listed "fields").flatMap field ++
    ((d.listed "indexes").flatMap index ++
    ((d.listed "policies").flatMap policy ++
    ((d.listed "triggers").flatMap trigger ++
    ((d.listed "relationships").flatMap relationship ++ [.leave none]))))))

/-- The steps for a storage bucket. -/
def storageBucket (d : Value) : List Step :=
  enter .storageBucket d :: ((d.listed "policies").flatMap policy ++ [.leave none])

/-- The steps for a function. -/
def function (d : Value) : List Step :=
  [declare .function [d.settingOr "name" .null, d.settingOr "args" (.list []),
    d.settingOr "return_type" .null, d.settingOr "body" .null] d]

/-- The steps for a view. -/
def view (d : Value) : List Step :=
  [declare .view [d.settingOr "name" .null, d.settingOr "query" .null] d]

/-- The data of a custom type, as they are given by name. -/
def typeKeywords (d : Value) : List (String × Value) :=
  Declaration.typeOptions.filterMap fun key => (d.get? key).map fun v => (key, v)

/-- The steps for a custom type. -/
def customType (d : Value) : List Step :=
  [.declare .customType ⟨[d.settingOr "name" .null, d.settingOr "kind" .null], typeKeywords d⟩]

/-- **The program for a definition**: all of its objects, in the order in which it has them. -/
def ofDefinition (d : Value) : List Step :=
  (d.listed "custom_types").flatMap customType ++
    ((d.listed "functions").flatMap function ++
    ((d.listed "views").flatMap view ++
    ((d.listed "tables").flatMap table ++
    (d.listed "storage_buckets").flatMap storageBucket)))

end Program

end SchemaCompiler
