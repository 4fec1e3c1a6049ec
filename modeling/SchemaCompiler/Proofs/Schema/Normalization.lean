import SchemaCompiler.Proofs.Builder.Invariant
import SchemaCompiler.Proofs.Schema.Construction
import SchemaCompiler.RowSecurity.Template

/-!
# Building is idempotent

Objects are built from named arguments, read from definitions, declared to a builder or taken from a
template.  However an object came about, it is settled: the attributes that it shows, taken as
arguments, build it once more.

* `Settled` — an object that is built again, as it is, from its attributes;
* `Field.settled`, …, `Schema.settled` — which objects of each kind are: those that meet the
  conditions of their kind, whatever their other attributes;
* `readAs`, `settled_of_readAs` — an object of any kind, read from its definition;
* `Builder.objects`, `Builder.Matches.settled` — the objects that a builder holds, told from what
  was declared to it: an operation or declaration adds settled objects only;
* `Built` — the ways in which objects come about;
* `building_idempotent` — **whatever was built is built again as it is**, and each conversion on the
  way leaves alone what it has made;
* `indexOver_nothing` — what is built from an iterator without items is the exception.
-/

namespace SchemaCompiler

open Construct

/-- An object of a kind that is built again, as it is, from its attributes. -/
def Settled (kind : RecordKind) (v : Value) : Prop :=
  ∃ attributes, v = .record kind attributes ∧ construct kind attributes = .ok v

/-! ### Objects of each kind -/

theorem OptionSet.settled {α : Type} [OptionSet α] [KnownByAttributes α] (o : α) :
    Settled (kind α) (toValue o) :=
  ⟨attributes o, rfl, (KnownByAttributes.construct_kind _).trans (optionSet_attributes o)⟩

theorem Field.settled (f : Field) : Settled .field f.toValue :=
  ⟨_, rfl, object_of_finish rfl rfl⟩

theorem Function.settled (f : Function) : Settled .function f.toValue :=
  ⟨_, rfl, object_of_finish rfl rfl⟩

theorem View.settled (v : View) : Settled .view v.toValue := ⟨_, rfl, object_of_finish rfl rfl⟩

theorem StorageBucket.settled (b : StorageBucket) : Settled .storageBucket b.toValue :=
  ⟨_, rfl, object_of_finish rfl rfl⟩

theorem Relationship.settled (r : Relationship) : Settled .relationship r.toValue := by
  refine ⟨_, rfl, object_of_finish rfl ?_⟩
  show (make (Vocabulary.toValue r.kind) r.name [] >>= _) = _
  rw [make, Vocabulary.read_toValue]
  rfl

/-- An index over some fields is settled. -/
theorem Index.settled {i : Index} (h : i.fields ≠ []) : Settled .index i.toValue := by
  refine ⟨_, rfl, object_of_finish rfl ?_⟩
  show (make (.list (i.fields.map .text)) {} >>= _) = _
  rw [make_texts h]
  rfl

/-- A policy with a condition is settled. -/
theorem Policy.settled {p : Policy} (h : p.condition.isTrue = true) :
    Settled .policy p.toValue := by
  refine ⟨_, rfl, object_of_finish rfl ?_⟩
  show (make (.member (.policyAction p.action)) p.description p.condition {} >>= _) = _
  rw [make_member h]
  rfl

/-- A trigger with an event is settled. -/
theorem Trigger.settled {t : Trigger} (h : t.events ≠ []) : Settled .trigger t.toValue := by
  have hevents : (Value.list t.events).isTrue = true := by simpa [Value.isTrue] using h
  exact ⟨_, rfl, object_of_finish rfl (if_pos hevents)⟩

/-- A type that was made of anything is settled. -/
theorem CustomType.settled {name kind values fields baseType constraint : Value} {t : CustomType}
    (h : make name kind values fields baseType constraint = .ok t) :
    Settled .customType t.toValue := by
  refine ⟨_, rfl, object_of_finish rfl ?_⟩
  obtain ⟨rfl, rfl, rfl, rfl, -⟩ := parts_of_make h
  show (make t.name (Vocabulary.toValue t.kind) t.values t.fields t.baseType t.constraint >>= _) = _
  rw [make_again h]
  rfl

/-- A table whose fields have different names is settled. -/
theorem Table.settled {t kept : Table} (h : t.checked = .ok kept) :
    Settled .table kept.toValue := by
  obtain ⟨hcheck, rfl⟩ := check_eq_ok.1 h
  have hnames : (t.fields.map Field.toValue).map nameOf = t.fields.map fun f => .ok f.name := by
    rw [List.map_map]
    rfl
  refine ⟨_, rfl, object_of_finish rfl ?_⟩
  show (checkFields t.name ((t.fields.map Field.toValue).map nameOf) >>= _) = _
  rw [hnames, hcheck]
  rfl

/-- A schema whose tables have different names is settled. -/
theorem Schema.settled {s kept : Schema} (h : s.checked = .ok kept) :
    Settled .schema kept.toValue := by
  obtain ⟨hcheck, rfl⟩ := check_eq_ok.1 h
  have hnames : (s.tables.map Table.toValue).map nameOf = s.tables.map fun t => .ok t.name := by
    rw [List.map_map]
    rfl
  refine ⟨_, rfl, object_of_finish rfl ?_⟩
  show (checkTables ((s.tables.map Table.toValue).map nameOf) >>= _) = _
  rw [hnames, hcheck]
  rfl

theorem Index.settled_of_make {given : Value} {options : IndexOptions} {i : Index}
    (h : make given options = .ok i) : Settled .index i.toValue :=
  settled (fields_ne_nil_of_make h)

theorem Policy.settled_of_make {action description condition : Value} {options : PolicyOptions}
    {p : Policy} (h : make action description condition options = .ok p) :
    Settled .policy p.toValue := by
  obtain ⟨-, -, -, hgiven⟩ := parts_of_make h
  exact settled hgiven

theorem Trigger.settled_of_make {name body : Value} {events : List Value}
    {options : TriggerOptions} {t : Trigger} (h : make name events body options = .ok t) :
    Settled .trigger t.toValue := by
  unfold make at h
  split at h
  next => exact nomatch h
  next hfilled =>
    cases h
    exact settled (by simpa using hfilled)

/-! ### Definitions -/

/-- Read an object or a set of options of a kind from its definition.  Only the messages about a set
of options say whose options they are. -/
def readAs (kind : RecordKind) (owner : String) (d : Value) : Except Fault Value :=
  match kind with
  | .fieldOptions => (OptionSet.ofValue FieldOptions d owner).map OptionSet.toValue
  | .indexOptions => (OptionSet.ofValue IndexOptions d owner).map OptionSet.toValue
  | .policyOptions => (OptionSet.ofValue PolicyOptions d owner).map OptionSet.toValue
  | .triggerOptions => (OptionSet.ofValue TriggerOptions d owner).map OptionSet.toValue
  | .tableOptions => (OptionSet.ofValue TableOptions d owner).map OptionSet.toValue
  | .functionOptions => (OptionSet.ofValue FunctionOptions d owner).map OptionSet.toValue
  | .viewOptions => (OptionSet.ofValue ViewOptions d owner).map OptionSet.toValue
  | .bucketOptions => (OptionSet.ofValue BucketOptions d owner).map OptionSet.toValue
  | .field => (Field.ofValue d).map Field.toValue
  | .index => (Index.ofValue d).map Index.toValue
  | .policy => (Policy.ofValue d).map Policy.toValue
  | .trigger => (Trigger.ofValue d).map Trigger.toValue
  | .relationship => (Relationship.ofValue d).map Relationship.toValue
  | .table => (Table.ofValue d).map Table.toValue
  | .function => (Function.ofValue d).map Function.toValue
  | .view => (View.ofValue d).map View.toValue
  | .customType => (CustomType.ofValue d).map CustomType.toValue
  | .storageBucket => (StorageBucket.ofValue d).map StorageBucket.toValue
  | .schema => (Schema.ofValue d).map Schema.toValue

theorem settled_of_map {α : Type} {kind : RecordKind} {read : Except Fault α} {toValue : α → Value}
    (hread : ∀ x, read = .ok x → Settled kind (toValue x)) {v : Value}
    (h : read.map toValue = .ok v) : Settled kind v := by
  obtain ⟨x, hx, rfl⟩ := map_eq_ok.1 h
  exact hread x hx

theorem Index.settled_of_ofValue {d : Value} {i : Index} (h : ofValue d = .ok i) :
    Settled .index i.toValue := by
  obtain ⟨columns, -, h⟩ := bind_eq_ok.1 h
  obtain ⟨fields, -, h⟩ := bind_eq_ok.1 h
  obtain ⟨options, -, h⟩ := bind_eq_ok.1 h
  exact settled_of_make h

theorem Policy.settled_of_ofValue {d : Value} {p : Policy} (h : ofValue d = .ok p) :
    Settled .policy p.toValue := settled (sound_of_reading h).1.condition

theorem Trigger.settled_of_ofValue {d : Value} {t : Trigger} (h : ofValue d = .ok t) :
    Settled .trigger t.toValue := by
  obtain ⟨name, -, h⟩ := bind_eq_ok.1 h
  obtain ⟨listed, -, h⟩ := bind_eq_ok.1 h
  obtain ⟨events, -, h⟩ := bind_eq_ok.1 h
  obtain ⟨body, -, h⟩ := bind_eq_ok.1 h
  obtain ⟨options, -, h⟩ := bind_eq_ok.1 h
  exact settled_of_make h

theorem CustomType.settled_of_ofValue {d : Value} {t : CustomType} (h : ofValue d = .ok t) :
    Settled .customType t.toValue := by
  obtain ⟨name, values, fields, baseType, constraint, hmake⟩ := (Built.definition h).exists_make
  exact settled hmake

theorem Table.settled_of_ofValue {d : Value} {t : Table} (h : ofValue d = .ok t) :
    Settled .table t.toValue := by
  obtain ⟨name, -, h⟩ := bind_eq_ok.1 h
  obtain ⟨fields, -, h⟩ := bind_eq_ok.1 h
  obtain ⟨indexes, -, h⟩ := bind_eq_ok.1 h
  obtain ⟨policies, -, h⟩ := bind_eq_ok.1 h
  obtain ⟨triggers, -, h⟩ := bind_eq_ok.1 h
  obtain ⟨relationships, -, h⟩ := bind_eq_ok.1 h
  obtain ⟨rlsEnabled, -, h⟩ := bind_eq_ok.1 h
  obtain ⟨options, -, h⟩ := bind_eq_ok.1 h
  exact settled h

theorem Schema.settled_of_ofValue {d : Value} {s : Schema} (h : ofValue d = .ok s) :
    Settled .schema s.toValue := by
  unfold ofValue at h
  split at h
  next =>
    obtain ⟨tables, -, h⟩ := bind_eq_ok.1 h
    obtain ⟨functions, -, h⟩ := bind_eq_ok.1 h
    obtain ⟨views, -, h⟩ := bind_eq_ok.1 h
    obtain ⟨buckets, -, h⟩ := bind_eq_ok.1 h
    obtain ⟨types, -, h⟩ := bind_eq_ok.1 h
    exact settled h
  next => cases h

/-- **What was read from a definition is settled.** -/
theorem settled_of_readAs {kind : RecordKind} {owner : String} {d v : Value}
    (h : readAs kind owner d = .ok v) : Settled kind v := by
  cases kind with
  | index => exact settled_of_map (fun _ => Index.settled_of_ofValue) h
  | policy => exact settled_of_map (fun _ => Policy.settled_of_ofValue) h
  | trigger => exact settled_of_map (fun _ => Trigger.settled_of_ofValue) h
  | table => exact settled_of_map (fun _ => Table.settled_of_ofValue) h
  | customType => exact settled_of_map (fun _ => CustomType.settled_of_ofValue) h
  | schema => exact settled_of_map (fun _ => Schema.settled_of_ofValue) h
  | field => exact settled_of_map (fun f _ => f.settled) h
  | relationship => exact settled_of_map (fun r _ => r.settled) h
  | function => exact settled_of_map (fun f _ => f.settled) h
  | view => exact settled_of_map (fun w _ => w.settled) h
  | storageBucket => exact settled_of_map (fun b _ => b.settled) h
  | fieldOptions => exact settled_of_map (fun o _ => OptionSet.settled o) h
  | indexOptions => exact settled_of_map (fun o _ => OptionSet.settled o) h
  | policyOptions => exact settled_of_map (fun o _ => OptionSet.settled o) h
  | triggerOptions => exact settled_of_map (fun o _ => OptionSet.settled o) h
  | tableOptions => exact settled_of_map (fun o _ => OptionSet.settled o) h
  | functionOptions => exact settled_of_map (fun o _ => OptionSet.settled o) h
  | viewOptions => exact settled_of_map (fun o _ => OptionSet.settled o) h
  | bucketOptions => exact settled_of_map (fun o _ => OptionSet.settled o) h

/-! ### Builders -/

/-- An object and its options. -/
def withOptions {α : Type} [OptionSet α] (v : Value) (options : α) : List Value :=
  [v, OptionSet.toValue options]

def Field.objects (f : Field) : List Value := withOptions f.toValue f.options
def Index.objects (i : Index) : List Value := withOptions i.toValue i.options
def Policy.objects (p : Policy) : List Value := withOptions p.toValue p.options
def Trigger.objects (t : Trigger) : List Value := withOptions t.toValue t.options
def Relationship.objects (r : Relationship) : List Value := [r.toValue]
def Function.objects (f : Function) : List Value := withOptions f.toValue f.options
def View.objects (v : View) : List Value := withOptions v.toValue v.options
def CustomType.objects (t : CustomType) : List Value := [t.toValue]

/-- The objects of a table that are there before the table is: its options, and what is declared
along with it. -/
def Table.parts (t : Table) : List Value :=
  OptionSet.toValue t.options :: (t.fields.flatMap Field.objects ++
    t.indexes.flatMap Index.objects ++ t.policies.flatMap Policy.objects ++
    t.triggers.flatMap Trigger.objects ++ t.relationships.flatMap Relationship.objects)

/-- The objects of a bucket that are there before the bucket is. -/
def StorageBucket.parts (b : StorageBucket) : List Value :=
  OptionSet.toValue b.options :: b.policies.flatMap Policy.objects

def Table.objects (t : Table) : List Value := t.toValue :: t.parts
def StorageBucket.objects (b : StorageBucket) : List Value := b.toValue :: b.parts

/-- The objects in a schema. -/
def Schema.parts (s : Schema) : List Value :=
  s.tables.flatMap Table.objects ++ s.storageBuckets.flatMap StorageBucket.objects ++
    s.functions.flatMap Function.objects ++ s.views.flatMap View.objects ++
    s.customTypes.flatMap CustomType.objects

/-- The objects in a block. -/
def Draft.parts : Draft → List Value
  | .table t => t.parts
  | .storageBucket b => b.parts

/-- The objects that a builder holds: those in its blocks and those it has recorded. -/
def Builder.objects (b : Builder) : List Value :=
  b.blocks.flatMap (fun block => block.draft.parts) ++ b.recorded.parts

/-- The objects that one operation or declaration adds. -/
def Declared.objects : Declared → List Value
  | .field f => f.objects
  | .index i => i.objects
  | .policy p => p.objects
  | .trigger g => g.objects
  | .relationship r => r.objects
  | .function f => f.objects
  | .view v => v.objects
  | .customType t => t.objects
  | .rowSecurity | .isPublic _ | .fileSizeLimit _ | .mimeTypes _ => []

/-- All values are settled objects. -/
def AllSettled (vs : List Value) : Prop := ∀ v ∈ vs, ∃ kind, Settled kind v

theorem allSettled_append {vs ws : List Value} :
    AllSettled (vs ++ ws) ↔ AllSettled vs ∧ AllSettled ws := List.forall_mem_append

theorem allSettled_cons {v : Value} {vs : List Value} :
    AllSettled (v :: vs) ↔ (∃ kind, Settled kind v) ∧ AllSettled vs := List.forall_mem_cons

theorem allSettled_flatMap {α : Type} {xs : List α} {objects : α → List Value} :
    AllSettled (xs.flatMap objects) ↔ ∀ x ∈ xs, AllSettled (objects x) := by
  constructor
  · intro h x hx v hv
    exact h v (List.mem_flatMap.2 ⟨x, hx, hv⟩)
  · intro h v hv
    obtain ⟨x, hx, hv⟩ := List.mem_flatMap.1 hv
    exact h x hx v hv

theorem Settled.alone {kind : RecordKind} {v : Value} (h : Settled kind v) : AllSettled [v] :=
  List.forall_mem_singleton.2 ⟨kind, h⟩

theorem Settled.withOptions {α : Type} [OptionSet α] [OptionSet.KnownByAttributes α]
    {kind : RecordKind} {v : Value} (h : Settled kind v) (o : α) : AllSettled (withOptions v o) :=
  allSettled_cons.2 ⟨⟨kind, h⟩, (OptionSet.settled o).alone⟩

/-- **What an operation declares is settled.** -/
theorem Operation.settled_declares {operation : Operation} {args : Arguments} {d : Declared}
    (h : operation.declares args = .ok d) : AllSettled d.objects := by
  unfold declares at h
  split at h
  next =>
    obtain ⟨options, -, h⟩ := bind_eq_ok.1 h
    cases h
    exact (Field.settled _).withOptions _
  next =>
    cases h
    exact nofun
  next =>
    obtain ⟨p, hp, h⟩ := bind_eq_ok.1 h
    cases h
    obtain ⟨options, -, hmake⟩ := bind_eq_ok.1 hp
    exact (Policy.settled_of_make hmake).withOptions _
  next =>
    obtain ⟨fields, -, h⟩ := bind_eq_ok.1 h
    obtain ⟨options, -, h⟩ := bind_eq_ok.1 h
    obtain ⟨i, hmake, h⟩ := bind_eq_ok.1 h
    cases h
    exact (Index.settled_of_make hmake).withOptions _
  next =>
    obtain ⟨events, -, h⟩ := bind_eq_ok.1 h
    obtain ⟨options, -, h⟩ := bind_eq_ok.1 h
    obtain ⟨t, hmake, h⟩ := bind_eq_ok.1 h
    cases h
    exact (Trigger.settled_of_make hmake).withOptions _
  next =>
    cases h
    exact (Relationship.settled _).alone
  next =>
    cases h
    exact nofun
  next =>
    cases h
    exact nofun
  next =>
    obtain ⟨types, -, h⟩ := bind_eq_ok.1 h
    cases h
    exact nofun
  next => exact nomatch h

/-- **What a declaration declares is settled.** -/
theorem Declaration.settled_declares {declaration : Declaration} {args : Arguments} {d : Declared}
    (h : declaration.declares args = .ok d) : AllSettled d.objects := by
  unfold declares at h
  split at h
  next =>
    obtain ⟨args, -, h⟩ := bind_eq_ok.1 h
    obtain ⟨options, -, h⟩ := bind_eq_ok.1 h
    cases h
    exact (Function.settled _).withOptions _
  next =>
    obtain ⟨options, -, h⟩ := bind_eq_ok.1 h
    cases h
    exact (View.settled _).withOptions _
  next =>
    obtain ⟨-, -, h⟩ := bind_eq_ok.1 h
    obtain ⟨t, hmake, h⟩ := bind_eq_ok.1 h
    cases h
    exact (CustomType.settled hmake).alone
  next => exact nomatch h

section Declaring

variable {declared : List Declared} (h : ∀ d ∈ declared, AllSettled d.objects)
include h

/-- What was declared is settled part by part. -/
theorem settled_filterMap {α : Type} {part? : Declared → Option α} {objects : α → List Value}
    (hpart : ∀ d x, part? d = some x → d.objects = objects x) :
    AllSettled ((declared.filterMap part?).flatMap objects) := by
  refine allSettled_flatMap.2 fun x hx => ?_
  obtain ⟨d, hd, hdx⟩ := List.mem_filterMap.1 hx
  exact hpart d x hdx ▸ h d hd

theorem settled_policies :
    AllSettled ((declared.filterMap Declared.policy?).flatMap Policy.objects) :=
  settled_filterMap h fun
    | .policy _, _, rfl => rfl

theorem Table.settled_declaring (t : Table) : AllSettled (t.declaring declared).parts := by
  refine allSettled_cons.2 ⟨⟨_, OptionSet.settled t.options⟩, ?_⟩
  simp only [allSettled_append]
  refine ⟨⟨⟨⟨?_, ?_⟩, settled_policies h⟩, ?_⟩, ?_⟩
  -- A part of one kind comes from a declaration of that kind, and from no other.
  · exact settled_filterMap h fun
      | .field _, _, rfl => rfl
  · exact settled_filterMap h fun
      | .index _, _, rfl => rfl
  · exact settled_filterMap h fun
      | .trigger _, _, rfl => rfl
  · exact settled_filterMap h fun
      | .relationship _, _, rfl => rfl

theorem StorageBucket.settled_declaring (b : StorageBucket) :
    AllSettled (b.declaring declared).parts :=
  allSettled_cons.2 ⟨⟨_, OptionSet.settled (b.declaring declared).options⟩, settled_policies h⟩

theorem Draft.settled_declaring (start : Draft) : AllSettled (start.declaring declared).parts := by
  cases start with
  | table t => exact t.settled_declaring h
  | storageBucket b => exact b.settled_declaring h

end Declaring

namespace Visit

variable {v : Visit}

theorem settled_declared (v : Visit) : ∀ d ∈ v.declared, AllSettled d.objects := by
  intro d hd
  obtain ⟨⟨operation, call⟩, -, hdeclares⟩ := List.mem_filterMap.1 hd
  obtain ⟨args, -, hd⟩ := bind_eq_ok.1 (toOption_eq_some.1 hdeclares)
  exact Operation.settled_declares hd

theorem settled_draft {draft : Draft} (h : v.draft? = some draft) : AllSettled draft.parts := by
  obtain ⟨start, -, rfl⟩ := draft?_eq_some.1 h
  exact start.settled_declaring v.settled_declared

/-- A table that is left behind is settled, and so are its parts. -/
theorem settled_table {t : Table} (h : v.table? = some t) : AllSettled t.objects := by
  unfold table? at h
  split at h
  next declared _ hdraft =>
    have hchecked := toOption_eq_some.1 h
    obtain ⟨-, -, rfl⟩ := Table.checked_eq_ok_iff.1 hchecked
    exact allSettled_cons.2 ⟨⟨_, Table.settled hchecked⟩, settled_draft hdraft⟩
  next => exact nomatch h

theorem settled_storageBucket {b : StorageBucket} (h : v.storageBucket? = some b) :
    AllSettled b.objects := by
  unfold storageBucket? at h
  split at h
  next declared _ hdraft =>
    cases h
    exact allSettled_cons.2 ⟨⟨_, b.settled⟩, settled_draft hdraft⟩
  next => exact nomatch h

end Visit

theorem History.settled_declared (h : History) : ∀ d ∈ h.declared, AllSettled d.objects := by
  intro d hd
  obtain ⟨⟨declaration, call⟩, -, hdeclares⟩ := List.mem_filterMap.1 hd
  obtain ⟨args, -, hd⟩ := bind_eq_ok.1 (toOption_eq_some.1 hdeclares)
  exact Declaration.settled_declares hd

/-- **All objects that a builder holds are settled**, whatever its history. -/
theorem Builder.Matches.settled {b : Builder} {h : History} (hm : b.Matches h) :
    AllSettled b.objects := by
  refine allSettled_append.2 ⟨allSettled_flatMap.2 fun block hblock => ?_, ?_⟩
  · have hvisit : some block ∈ h.visits.map Visit.block? := by
      rw [← hm.blocks]
      exact List.mem_map_of_mem hblock
    obtain ⟨v, -, hv⟩ := List.mem_map.1 hvisit
    exact Visit.settled_draft (Visit.block?_eq_some.1 hv).1
  · rw [hm.recorded]
    simp only [Schema.parts, allSettled_append]
    refine ⟨⟨⟨⟨?_, ?_⟩, ?_⟩, ?_⟩, ?_⟩
    · refine allSettled_flatMap.2 fun t ht => ?_
      obtain ⟨v, -, hv⟩ := List.mem_filterMap.1 ht
      exact Visit.settled_table hv
    · refine allSettled_flatMap.2 fun b hb => ?_
      obtain ⟨v, -, hv⟩ := List.mem_filterMap.1 hb
      exact Visit.settled_storageBucket hv
    · exact settled_filterMap h.settled_declared fun
        | .function _, _, rfl => rfl
    · exact settled_filterMap h.settled_declared fun
        | .view _, _, rfl => rfl
    · exact settled_filterMap h.settled_declared fun
        | .customType _, _, rfl => rfl

theorem Builder.settled_build {b : Builder} {s : Schema} (h : b.build = .ok s) :
    Settled .schema s.toValue := by
  unfold build at h
  split at h
  next => exact nomatch h
  next => exact Schema.settled h

/-! ### Templates -/

namespace RowSecurity

/-- Policies that come from templates. -/
inductive Template : Policy → Prop
  | userOwnsRecord (field : Value) : Template (userOwnsRecord field)
  | publicRead : Template publicRead
  | authenticatedOnly {actions : Value} {policies : List Policy} {p : Policy}
    (h : authenticatedOnly actions = .ok policies) (hp : p ∈ policies) : Template p
  | ownerOrPublicRead {owner published : Value} {p : Policy}
    (hp : p ∈ ownerOrPublicRead owner published) : Template p

/-- A text that ends in something counts as given, and so does one that starts with something. -/
theorem isTrue_text_append {front back : String} (h : front ≠ "" ∨ back ≠ "") :
    (Value.text (front ++ back)).isTrue = true := by
  rw [Value.isTrue, bne_iff_ne, ne_eq, String.append_eq_empty_iff]
  tauto

/-- The policies for users who are signed in are made one by one. -/
theorem exists_actions {actions : Value} {policies : List Policy}
    (h : authenticatedOnly actions = .ok policies) :
    ∃ given : List Value, (given.mapM fun action => Policy.make action
      (.text "Authenticated users only") (.text "auth.uid() IS NOT NULL") {}) = .ok policies := by
  unfold authenticatedOnly at h
  dsimp only at h
  split at h
  all_goals
    obtain ⟨given, -, h⟩ := bind_eq_ok.1 h
    exact ⟨given, h⟩

theorem Template.settled {p : Policy} (h : Template p) : Settled .policy p.toValue := by
  cases h with
  | userOwnsRecord field => exact Policy.settled (isTrue_text_append (.inl (by decide)))
  | publicRead => exact Policy.settled rfl
  | authenticatedOnly h hp =>
    obtain ⟨given, hgiven⟩ := exists_actions h
    obtain ⟨action, -, hmake⟩ := exists_item_of_mem hgiven hp
    exact Policy.settled_of_make hmake
  | ownerOrPublicRead hp =>
    rcases List.mem_pair.1 hp with rfl | rfl
    · exact Policy.settled (isTrue_text_append (.inr (by decide)))
    · exact Policy.settled (isTrue_text_append (.inl (by decide)))

end RowSecurity

/-! ### Whatever was built -/

/-- The ways in which objects and sets of options come about. -/
inductive Built : RecordKind → Value → Prop
  /-- Built from named arguments. -/
  | arguments {kind : RecordKind} {args : List (String × Value)} {v : Value}
    (h : construct kind args = .ok v) : Built kind v
  /-- An index, built from an iterator over at least one field and from named arguments. -/
  | indexOver {items : List Value} {args : List (String × Value)} {v : Value} (hitems : items ≠ [])
    (h : Construct.indexOver items args = .ok v) : Built .index v
  /-- A composite type, built from an iterator over at least one column and from named arguments. -/
  | compositeOf {items : List Value} {args : List (String × Value)} {v : Value}
    (hitems : items ≠ []) (h : Construct.compositeOf items args = .ok v) : Built .customType v
  /-- Read from a definition. -/
  | definition {kind : RecordKind} {owner : String} {d v : Value}
    (h : readAs kind owner d = .ok v) : Built kind v
  /-- Declared to a builder, in any run of it. -/
  | declaration {kind : RecordKind} {steps : List Step}
    {attributes : List (String × Value)}
    (h : .record kind attributes ∈ (Builder.run {} steps).objects) :
    Built kind (.record kind attributes)
  /-- The schema that a builder makes at the end. -/
  | schema {steps : List Step} {s : Schema}
    (h : (Builder.run {} steps).build = .ok s) : Built .schema s.toValue
  /-- Taken from a template. -/
  | template {kind : RecordKind} {p : Policy} {attributes : List (String × Value)}
    (h : RowSecurity.Template p) (hmem : .record kind attributes ∈ p.objects) :
    Built kind (.record kind attributes)

theorem AllSettled.of_mem {vs : List Value} (h : AllSettled vs) {kind : RecordKind}
    {attributes : List (String × Value)} (hmem : .record kind attributes ∈ vs) :
    Settled kind (.record kind attributes) := by
  obtain ⟨kind', hsettled⟩ := h _ hmem
  obtain ⟨attributes', heq, -⟩ := id hsettled
  cases heq
  exact hsettled

theorem Built.settled {kind : RecordKind} {v : Value} (h : Built kind v) : Settled kind v := by
  cases h with
  | arguments h => exact construct_again h
  | indexOver hitems h => exact construct_again (object_of_indexOver hitems h)
  | compositeOf hitems h => exact construct_again (object_of_compositeOf hitems h)
  | definition h => exact settled_of_readAs h
  | declaration h => exact (Builder.matches_empty.run _).settled.of_mem h
  | schema h => exact Builder.settled_build h
  | template h hmem => exact (h.settled.withOptions _).of_mem hmem

/-- **Building is idempotent**, but for iterators that have nothing to give.  Let an object or a set
of options of any kind have been built from whatever was given: from named arguments, from a
definition, by a builder or by a template; the fields of an index and the columns of a composite type
may have been given as an iterator that has items.  It is a record of its kind, and the arguments that
are its own attributes build the very same object once more, which is equal to it.

So it is with each conversion on the way, done to what it has made: reading the members of a
vocabulary, reading a set of options, turning the fields of an index into texts, and turning the
columns of a composite into pairs. -/
theorem building_idempotent :
    (∀ {kind : RecordKind} {v : Value}, Built kind v →
      ∃ attributes, v = .record kind attributes ∧ construct kind attributes = .ok v ∧
        v.equal v = true) ∧
    (∀ (α : Type) [Vocabulary α] [Vocabulary.KnowsMembers α] (what : String),
      Stable fun v => (Vocabulary.read α v what).map Vocabulary.toValue) ∧
    (∀ (α : Type) [OptionSet α] [OptionSet.KnownByAttributes α] (owner : String),
      Stable fun v => (OptionSet.ofValue α v owner).map OptionSet.toValue) ∧
    (∀ options : IndexOptions,
      Stable fun v => (Index.make v options).map fun i => .list (i.fields.map .text)) ∧
    Stable fun v => (CustomType.columns v).map .list := by
  refine ⟨fun {kind v} h => ?_, fun α _ _ => Vocabulary.stable_read,
    fun α _ _ => OptionSet.stable_ofValue, Index.stable_make, CustomType.stable_columns⟩
  obtain ⟨attributes, rfl, hagain⟩ := h.settled
  have hequal : (Value.record kind attributes).equal (.record kind attributes) = true := by
    rw [Value.equal, Value.same_refl]
    rfl
  exact ⟨attributes, rfl, hagain, hequal⟩

/-- **What is built from nothing is not built again.**  An iterator without items counts as given, so
an index without fields and a composite type without columns can be built of one; their own attributes
are refused. -/
theorem indexOver_nothing :
    (∃ attributes, Construct.indexOver [] [] = .ok (.record .index attributes) ∧
      construct .index attributes = .error (.schema .indexWithoutFields)) ∧
    ∃ attributes,
      Construct.compositeOf [] [("name", .text "pair")] = .ok (.record .customType attributes) ∧
      construct .customType attributes = .error (.schema (.compositeWithoutFields "pair")) :=
  ⟨⟨_, rfl, rfl⟩, ⟨_, rfl, rfl⟩⟩

/-- Arguments for a policy: a word for its action, a number for its condition, and a mapping for its
options. -/
def editorsRead : List (String × Value) := [
  ("action", .text "Select"),
  ("description", .text "Editors read"),
  ("condition", .int 1),
  ("options", .mapping [(.text "for", .text "editor")])]

/-- The policy that is made of them. -/
def editorsPolicy : Policy where
  action := .select
  description := .text "Editors read"
  condition := .int 1
  options := { roles := .text "editor" }

/-- It has other attributes, and these make it again; its action and its options are read as
themselves.  An index that was built from an iterator over a number has a text for its field, and is
built again from that. -/
theorem building_editorsRead :
    construct .policy editorsRead = .ok editorsPolicy.toValue ∧
    (∃ attributes, editorsPolicy.toValue = .record .policy attributes ∧ attributes ≠ editorsRead ∧
      construct .policy attributes = .ok editorsPolicy.toValue) ∧
    (∃ attributes, Construct.indexOver [.int 1] [] = .ok (.record .index attributes) ∧
      attributes.lookup "fields" = some (.list [.text "1"]) ∧
      construct .index attributes = .ok (.record .index attributes)) ∧
    (Vocabulary.read PolicyAction (editorsPolicy.toValue.shown "action") "policy action").map
      Vocabulary.toValue = .ok (editorsPolicy.toValue.shown "action") ∧
    (OptionSet.ofValue PolicyOptions (editorsPolicy.toValue.shown "options")
      "policy 'Editors read'").map OptionSet.toValue =
        .ok (editorsPolicy.toValue.shown "options") := by
  have hbuilt : construct .policy editorsRead = .ok editorsPolicy.toValue := rfl
  obtain ⟨hagain, hwords, hoptions, -, -⟩ := building_idempotent
  have hindex : Construct.indexOver [.int 1] [] =
      .ok (Index.toValue { fields := ["1"] }) := rfl
  refine ⟨hbuilt, ?_, ?_, ?_, ?_⟩
  · obtain ⟨attributes, heq, hattributes, -⟩ := hagain (.arguments hbuilt)
    refine ⟨attributes, heq, ?_, hattributes⟩
    rintro rfl
    exact nomatch heq
  · obtain ⟨attributes, heq, hattributes, -⟩ := hagain (.indexOver (List.cons_ne_nil _ _) hindex)
    rw [heq] at hattributes
    cases heq
    exact ⟨_, hindex, rfl, hattributes⟩
  · exact hwords PolicyAction "policy action" (.text "Select") _ rfl
  · exact hoptions PolicyOptions _ (.mapping [(.text "for", .text "editor")]) _ rfl

end SchemaCompiler
