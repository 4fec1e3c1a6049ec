import SchemaCompiler.Proofs.Schema.Origins

/-!
# Building an object again

An object can be built again from its own attributes, since all that building changes has been
changed already: words are members of their vocabularies, options are a set and not a mapping, the
fields of an index are texts, and the columns of a composite are tuples in a list.

* `Stable` — **a conversion that leaves alone what it has made**;
* `Vocabulary.read_toValue`, `OptionSet.ofValue_toValue`, `Index.make_texts`, `Policy.make_member`,
  `CustomType.make_again` — each conversion, done again;
* `Construct.bind_self` — attributes are arguments for all parameters;
* `Construct.finish_again` — **completed arguments are complete**, kind by kind;
* `object_of_indexOver`, `object_of_compositeOf` — what is built from an iterator that has items is
  what is built from the list of them;
* `construct_again` — **an object that was built can be built again from its attributes**.
-/

namespace SchemaCompiler

open Value

/-- A conversion that leaves alone what it has made. -/
def Stable (convert : Value → Except Fault Value) : Prop :=
  ∀ given made, convert given = .ok made → convert made = .ok made

/-! ### Members of vocabularies -/

/-- A vocabulary recognises its own members among those of all vocabularies. -/
class Vocabulary.KnowsMembers (α : Type) [Vocabulary α] : Prop where
  ofMember?_toMember : ∀ m : α, ofMember? (toMember m) = some m

instance : Vocabulary.KnowsMembers PolicyAction := ⟨fun _ => rfl⟩
instance : Vocabulary.KnowsMembers ReferentialAction := ⟨fun _ => rfl⟩
instance : Vocabulary.KnowsMembers TriggerTiming := ⟨fun _ => rfl⟩
instance : Vocabulary.KnowsMembers TriggerScope := ⟨fun _ => rfl⟩
instance : Vocabulary.KnowsMembers Volatility := ⟨fun _ => rfl⟩
instance : Vocabulary.KnowsMembers SecurityMode := ⟨fun _ => rfl⟩
instance : Vocabulary.KnowsMembers TypeKind := ⟨fun _ => rfl⟩
instance : Vocabulary.KnowsMembers RelationshipKind := ⟨fun _ => rfl⟩

/-- **A member is read as itself**, and what is absent stays absent. -/
theorem Vocabulary.read_toValue {α : Type} [Vocabulary α] [KnowsMembers α] (m : Option α)
    (what : String) : Vocabulary.read α (Vocabulary.toValue m) what = .ok m := by
  cases m with
  | none => rfl
  | some m =>
    simp only [Vocabulary.toValue, Vocabulary.read]
    rw [KnowsMembers.ofMember?_toMember]

theorem Vocabulary.stable_read {α : Type} [Vocabulary α] [KnowsMembers α] (what : String) :
    Stable fun v => (Vocabulary.read α v what).map Vocabulary.toValue := by
  intro given made h
  obtain ⟨m, -, rfl⟩ := map_eq_ok.1 h
  exact map_eq_ok.2 ⟨m, read_toValue m what, rfl⟩

/-! ### Sets of options -/

namespace OptionSet

/-- A set of options shows all of its options, is known by what it shows, and is what arguments for
its kind are for. -/
class KnownByAttributes (α : Type) [OptionSet α] : Prop where
  names_attributes : ∀ o : α, (attributes o).map Prod.fst = names α
  ofSettings_attributes : ∀ o : α, ofSettings ((attributes o).lookup ·) = .ok o
  construct_kind : ∀ args, construct (kind α) args = Construct.optionSet α args

instance : KnownByAttributes FieldOptions where
  names_attributes _ := rfl
  construct_kind _ := rfl
  ofSettings_attributes o := by
    show (Vocabulary.read ReferentialAction (Vocabulary.toValue o.onDelete) _ >>= fun onDelete =>
      Vocabulary.read ReferentialAction (Vocabulary.toValue o.onUpdate) _ >>= fun onUpdate =>
        .ok { o with onDelete, onUpdate }) = .ok o
    rw [Vocabulary.read_toValue, ok_bind, Vocabulary.read_toValue, ok_bind]

instance : KnownByAttributes IndexOptions := ⟨fun _ => rfl, fun _ => rfl, fun _ => rfl⟩
instance : KnownByAttributes PolicyOptions := ⟨fun _ => rfl, fun _ => rfl, fun _ => rfl⟩

instance : KnownByAttributes TriggerOptions where
  names_attributes _ := rfl
  construct_kind _ := rfl
  ofSettings_attributes o := by
    show (Vocabulary.read TriggerTiming (Vocabulary.toValue (some o.timing)) _ >>= fun timing =>
      Vocabulary.read TriggerScope (Vocabulary.toValue (some o.scope)) _ >>= fun scope =>
        .ok { o with timing := timing.getD .before, scope := scope.getD .row }) = .ok o
    rw [Vocabulary.read_toValue, ok_bind, Vocabulary.read_toValue, ok_bind]
    rfl

instance : KnownByAttributes TableOptions := ⟨fun _ => rfl, fun _ => rfl, fun _ => rfl⟩

instance : KnownByAttributes FunctionOptions where
  names_attributes _ := rfl
  construct_kind _ := rfl
  ofSettings_attributes o := by
    show (Vocabulary.read Volatility (Vocabulary.toValue o.volatility) _ >>= fun volatility =>
      Vocabulary.read SecurityMode (Vocabulary.toValue o.security) _ >>= fun security =>
        .ok { o with volatility, security }) = .ok o
    rw [Vocabulary.read_toValue, ok_bind, Vocabulary.read_toValue, ok_bind]

instance : KnownByAttributes ViewOptions := ⟨fun _ => rfl, fun _ => rfl, fun _ => rfl⟩
instance : KnownByAttributes BucketOptions := ⟨fun _ => rfl, fun _ => rfl, fun _ => rfl⟩

section

variable {α : Type} [OptionSet α] [KnownByAttributes α]

/-- **A set of options is read as itself.** -/
theorem ofValue_toValue (o : α) (owner : String) : ofValue α (toValue o) owner = .ok o := by
  rw [toValue, ofValue]
  exact (if_pos rfl).trans (KnownByAttributes.ofSettings_attributes o)

theorem stable_ofValue (owner : String) :
    Stable fun v => (ofValue α v owner).map toValue := by
  intro given made h
  obtain ⟨o, -, rfl⟩ := map_eq_ok.1 h
  exact map_eq_ok.2 ⟨o, ofValue_toValue o owner, rfl⟩

/-- A set of options is built from its options. -/
theorem optionSet_attributes (o : α) : Construct.optionSet α (attributes o) = .ok (toValue o) := by
  have hknown : ((attributes o).any fun a => !(names α).contains a.1) = false := by
    rw [List.any_eq_false]
    intro a ha
    have hname : a.1 ∈ names α :=
      KnownByAttributes.names_attributes o ▸ List.mem_map_of_mem ha
    rw [List.contains_iff_mem.2 hname]
    exact Bool.false_ne_true
  rw [Construct.optionSet, hknown, KnownByAttributes.ofSettings_attributes]
  rfl

theorem optionSet_again {args : List (String × Value)} {v : Value}
    (h : Construct.optionSet α args = .ok v) :
    ∃ attributes, v = .record (kind α) attributes ∧ Construct.optionSet α attributes = .ok v := by
  unfold Construct.optionSet at h
  split at h
  next => exact nomatch h
  next =>
    obtain ⟨o, -, h⟩ := bind_eq_ok.1 h
    cases h
    exact ⟨attributes o, rfl, optionSet_attributes o⟩

end

end OptionSet

/-! ### Objects from their parts -/

/-- An index has a field. -/
theorem Index.fields_ne_nil_of_make {given : Value} {options : IndexOptions} {i : Index}
    (h : Index.make given options = .ok i) : i.fields ≠ [] := by
  unfold Index.make at h
  split at h
  next hgiven =>
    obtain ⟨items, hitems, h⟩ := bind_eq_ok.1 h
    cases h
    simpa using CustomType.ne_nil_of_isTrue hgiven hitems
  next => exact nomatch h

/-- **Texts are the names of fields as they are.** -/
theorem Index.make_texts {fields : List String} (h : fields ≠ []) (options : IndexOptions) :
    Index.make (.list (fields.map .text)) options = .ok { fields, options } := by
  have htexts : (fields.map Value.text).map Value.toText = fields := by
    rw [List.map_map]
    exact List.map_id fields
  rw [Index.make, if_pos (by simpa [Value.isTrue] using h)]
  exact congrArg (fun names => Except.ok (Index.mk names options)) htexts

theorem Index.stable_make (options : IndexOptions) :
    Stable fun v => (Index.make v options).map fun i => .list (i.fields.map .text) := by
  intro given made h
  obtain ⟨i, hi, rfl⟩ := map_eq_ok.1 h
  exact map_eq_ok.2 ⟨_, Index.make_texts (Index.fields_ne_nil_of_make hi) options, rfl⟩

/-- A policy has a condition that counts as given. -/
theorem Policy.parts_of_make {action description condition : Value} {options : PolicyOptions}
    {p : Policy} (h : Policy.make action description condition options = .ok p) :
    p.description = description ∧ p.condition = condition ∧ p.options = options ∧
      p.condition.isTrue = true := by
  obtain ⟨found, -, h⟩ := bind_eq_ok.1 h
  cases found with
  | none => exact nomatch h
  | some a =>
    dsimp only at h
    split at h
    next hgiven =>
      cases h
      exact ⟨rfl, rfl, rfl, hgiven⟩
    next => exact nomatch h

/-- **A member is the action of a policy as it is.** -/
theorem Policy.make_member {condition : Value} (h : condition.isTrue = true) (action : PolicyAction)
    (description : Value) (options : PolicyOptions) :
    Policy.make (.member (.policyAction action)) description condition options =
      .ok { action, description, condition, options } := if_pos h

theorem Relationship.make_again {kind name : Value} {options : List (Value × Value)}
    {r : Relationship} (h : Relationship.make kind name options = .ok r) :
    Relationship.make (Vocabulary.toValue r.kind) name options = .ok r := by
  obtain ⟨found, -, h⟩ := bind_eq_ok.1 h
  cases h
  rw [Relationship.make, Vocabulary.read_toValue]
  rfl

namespace CustomType

/-- Columns are tuples, whatever they were read from. -/
theorem isTuple_of_mem_columns {fields : Value} {found : List Value}
    (h : columns fields = .ok found) {column : Value} (hmem : column ∈ found) : column.IsTuple := by
  unfold columns at h
  split at h
  next es =>
    cases h
    obtain ⟨e, -, rfl⟩ := List.mem_map.1 hmem
    exact ⟨_, rfl⟩
  next =>
    obtain ⟨vs, -, h⟩ := bind_eq_ok.1 h
    obtain ⟨part, -, hpart⟩ := exists_item_of_mem h hmem
    obtain ⟨parts, -, hparts⟩ := bind_eq_ok.1 hpart
    exact ⟨parts, (Except.ok.inj hparts).symm⟩

/-- **Columns are read as themselves.** -/
theorem columns_again {fields : Value} {found : List Value} (h : columns fields = .ok found) :
    columns (.list found) = .ok found := by
  have hself : ∀ column ∈ found,
      (column.items >>= fun parts => pure (.tuple parts)) = Except.ok (id column) := by
    intro column hmem
    obtain ⟨parts, rfl⟩ := isTuple_of_mem_columns h hmem
    rfl
  have hall := mapM_eq_ok_map hself
  rw [List.map_id] at hall
  exact hall

theorem stable_columns : Stable fun v => (columns v).map .list := by
  intro given made h
  obtain ⟨found, hfound, rfl⟩ := map_eq_ok.1 h
  exact map_eq_ok.2 ⟨found, columns_again hfound, rfl⟩

theorem make_again {name kind values fields baseType constraint : Value} {t : CustomType}
    (h : make name kind values fields baseType constraint = .ok t) :
    make name (Vocabulary.toValue t.kind) values t.fields baseType constraint = .ok t := by
  obtain ⟨found, -, h⟩ := bind_eq_ok.1 h
  cases found with
  | none =>
    cases h
    rfl
  | some m =>
    cases m with
    | enum =>
      dsimp only at h
      split at h
      next hgiven =>
        cases h
        exact if_pos hgiven
      next => cases h
    | composite =>
      dsimp only at h
      split at h
      next hgiven =>
        obtain ⟨found, hfound, h⟩ := bind_eq_ok.1 h
        cases h
        obtain ⟨_, heq, hfilled, -⟩ := isFilledList_columns hgiven hfound
        have htrue : (Value.list found).isTrue = true := by
          rw [heq]
          simpa [Value.isTrue] using hfilled
        refine (if_pos htrue).trans ?_
        rw [columns_again hfound]
        rfl
      next => cases h
    | domain =>
      dsimp only at h
      split at h
      next => cases h
      next hgiven =>
        cases h
        exact if_neg hgiven

end CustomType

/-! ### Arguments -/

/-- Where no name is repeated, what stands under one is found. -/
theorem lookup_of_mem {α : Type} {entries : List (String × α)}
    (hnodup : (entries.map Prod.fst).Nodup) {e : String × α} (he : e ∈ entries) :
    entries.lookup e.1 = some e.2 := by
  induction entries with
  | nil => exact absurd he List.not_mem_nil
  | cons entry rest ih =>
    obtain ⟨hnew, hrest⟩ := List.nodup_cons.1 hnodup
    rw [List.lookup_cons]
    rcases List.mem_cons.1 he with rfl | he
    · rw [beq_self_eq_true]
    · have hne : e.1 ≠ entry.1 := fun heq => hnew (heq ▸ List.mem_map_of_mem he)
      rw [beq_eq_false_iff_ne.2 hne]
      exact ih hrest he

namespace Construct

variable {expected : List Parameter} {args bound : List (String × Value)}

theorem names_fill (h : Parameter.fill args expected = .ok bound) :
    bound.map Prod.fst = expected.map Prod.fst := by
  induction expected generalizing bound with
  | nil =>
    cases h
    rfl
  | cons parameter expected ih =>
    obtain ⟨value, rest, -, hrest, rfl⟩ := CustomType.fill_cons_eq_ok.1 h
    rw [List.map_cons, List.map_cons, ih hrest]

/-- Arguments that are found under the names of all parameters are taken for them. -/
theorem fill_of_lookup (hnames : bound.map Prod.fst = expected.map Prod.fst)
    (h : ∀ a ∈ bound, args.lookup a.1 = some a.2) : Parameter.fill args expected = .ok bound := by
  induction expected generalizing bound with
  | nil =>
    rw [List.map_eq_nil_iff.1 hnames]
    rfl
  | cons parameter expected ih =>
    obtain ⟨name, standIn⟩ := parameter
    obtain ⟨⟨_, value⟩, rest, rfl, rfl, hrest⟩ := List.map_eq_cons_iff.1 hnames
    rw [List.forall_mem_cons] at h
    exact CustomType.fill_cons_eq_ok.2 ⟨value, rest, by rw [h.1]; rfl, ih hrest h.2, rfl⟩

theorem names_bind (h : bind expected args = .ok bound) :
    bound.map Prod.fst = expected.map Prod.fst := by
  unfold bind at h
  split at h
  next => exact nomatch h
  next => exact names_fill h

/-- **Arguments for all parameters are bound to them as they are.** -/
theorem bind_self (hnames : bound.map Prod.fst = expected.map Prod.fst)
    (hnodup : (expected.map Prod.fst).Nodup) : bind expected bound = .ok bound := by
  have hknown : (bound.any fun a => !Parameter.named a.1 expected) = false := by
    rw [List.any_eq_false]
    intro a ha
    obtain ⟨p, hp, heq⟩ := List.mem_map.1 (hnames ▸ List.mem_map_of_mem ha)
    have hnamed : Parameter.named a.1 expected = true :=
      List.any_eq_true.2 ⟨p, hp, beq_iff_eq.2 heq⟩
    rw [hnamed]
    exact Bool.false_ne_true
  rw [bind, hknown]
  exact fill_of_lookup hnames fun a ha => lookup_of_mem (hnames ▸ hnodup) ha

/-- What is given for a parameter is its argument. -/
theorem argument_of_fill (h : Parameter.fill args expected = .ok bound) {name : String}
    (hmem : name ∈ expected.map Prod.fst) {value : Value} (hgiven : args.lookup name = some value) :
    argument bound name = value := by
  induction expected generalizing bound with
  | nil => exact absurd hmem List.not_mem_nil
  | cons parameter expected ih =>
    obtain ⟨found, rest, hfound, hrest, rfl⟩ := CustomType.fill_cons_eq_ok.1 h
    by_cases hname : name = parameter.1
    · subst hname
      rw [hgiven] at hfound
      cases hfound
      rw [argument, List.lookup_cons_self]
      rfl
    · have hne : (name == parameter.1) = false := beq_eq_false_iff_ne.2 hname
      rw [argument, List.lookup_cons, hne]
      exact ih hrest ((List.mem_cons.1 hmem).resolve_left hname)

theorem argument_of_bind (h : bind expected args = .ok bound) {name : String}
    (hmem : name ∈ expected.map Prod.fst) {value : Value} (hgiven : args.lookup name = some value) :
    argument bound name = value := by
  unfold bind at h
  split at h
  next => exact nomatch h
  next => exact argument_of_fill h hmem hgiven

/-! ### Arguments that are replaced -/

theorem names_replaced (bound : List (String × Value)) (name : String) (value : Value) :
    (replaced bound name value).map Prod.fst = bound.map Prod.fst := by
  rw [replaced, List.map_map]
  refine List.map_congr_left fun a _ => ?_
  obtain ⟨n, v⟩ := a
  by_cases hname : n = name <;> simp [hname]

theorem argument_replaced {name : String} (hmem : name ∈ bound.map Prod.fst) (value : Value) :
    argument (replaced bound name value) name = value := by
  induction bound with
  | nil => exact absurd hmem List.not_mem_nil
  | cons a rest ih =>
    obtain ⟨n, v⟩ := a
    by_cases hname : n = name
    · simp [argument, replaced, hname]
    · have hrest : name ∈ rest.map Prod.fst := (List.mem_cons.1 hmem).resolve_left (Ne.symm hname)
      have hne : (name == n) = false := beq_eq_false_iff_ne.2 (Ne.symm hname)
      simpa [argument, replaced, List.lookup_cons, hname, hne] using ih hrest

theorem argument_replaced_of_ne {name other : String} (h : other ≠ name) (value : Value)
    (bound : List (String × Value)) :
    argument (replaced bound name value) other = argument bound other := by
  induction bound with
  | nil => rfl
  | cons a rest ih =>
    obtain ⟨n, v⟩ := a
    by_cases hname : n = name
    · subst hname
      have hne : (other == n) = false := beq_eq_false_iff_ne.2 h
      simpa [argument, replaced, List.lookup_cons, hne] using ih
    · by_cases hother : other = n
      · simp [argument, replaced, hname, hother]
      · have hne : (other == n) = false := beq_eq_false_iff_ne.2 hother
        simpa [argument, replaced, List.lookup_cons, hname, hne] using ih

/-- An argument that is replaced by itself stays. -/
theorem replaced_argument (hnodup : (bound.map Prod.fst).Nodup) {name : String} {value : Value}
    (h : argument bound name = value) : replaced bound name value = bound := by
  refine (List.map_congr_left fun a ha => ?_).trans (List.map_id _)
  obtain ⟨n, v⟩ := a
  by_cases hname : n = name
  · subst hname
    have hfound : argument bound n = v := by
      rw [argument, lookup_of_mem hnodup ha]
      rfl
    simp [← h, hfound]
  · simp [hname]

/-! ### Arguments that are complete -/

/-- Arguments have been completed: they are for the same parameters, those that nothing is done to
are the same, and nothing more is done to the options. -/
structure Completes (α : Type) [OptionSet α] (bound made : List (String × Value)) : Prop where
  names : made.map Prod.fst = bound.map Prod.fst
  argument_eq : ∀ name ≠ "options", argument made name = argument bound name
  again : ∀ owner, ownOptions α owner made = .ok made

/-- **Options are read once**: they are a set of options then, or what is no mapping. -/
theorem completes_of_ownOptions {α : Type} [OptionSet α] {owner : String}
    {made : List (String × Value)} (hmem : "options" ∈ bound.map Prod.fst)
    (h : ownOptions α owner bound = .ok made) : Completes α bound made := by
  unfold ownOptions at h
  split at h
  next es _ =>
    obtain ⟨o, -, h⟩ := bind_eq_ok.1 h
    cases h
    refine ⟨names_replaced _ _ _, fun name hname => argument_replaced_of_ne hname _ _,
      fun owner => ?_⟩
    rw [ownOptions, argument_replaced hmem]
    rfl
  next hkept =>
    cases h
    refine ⟨rfl, fun _ _ => rfl, fun owner => ?_⟩
    unfold ownOptions
    split
    next es hes => exact absurd hes (hkept es)
    next => rfl

/-- The parameters of a kind have different names. -/
theorem nodup_parameters (kind : RecordKind) :
    ((Construct.parameters kind).map Prod.fst).Nodup := by
  cases kind <;> decide

/-- The arguments are for the parameters of a kind. -/
def AreFor (kind : RecordKind) (bound : List (String × Value)) : Prop :=
  bound.map Prod.fst = (parameters kind).map Prod.fst

section Finish

variable {kind : RecordKind} {made : List (String × Value)}

theorem AreFor.nodup (h : AreFor kind bound) : (bound.map Prod.fst).Nodup :=
  h ▸ nodup_parameters kind

theorem AreFor.mem (h : AreFor kind bound) (name : String)
    (hname : name ∈ (parameters kind).map Prod.fst) : name ∈ bound.map Prod.fst := h ▸ hname

theorem AreFor.replaced (h : AreFor kind bound) (name : String) (value : Value) :
    AreFor kind (Construct.replaced bound name value) := (names_replaced bound name value).trans h

/-- Options are read once for arguments of any kind that has options. -/
theorem AreFor.completes {α : Type} [OptionSet α] {owner : String} (hfor : AreFor kind bound)
    (hmem : "options" ∈ (parameters kind).map Prod.fst) (h : ownOptions α owner bound = .ok made) :
    AreFor kind made ∧ Completes α bound made := by
  have hmade := completes_of_ownOptions (hfor.mem "options" hmem) h
  exact ⟨hmade.names.trans hfor, hmade⟩

/-- **The fields of an index are texts after the first time.** -/
theorem finish_index_again (hfor : AreFor .index bound) (h : finish .index bound = .ok made) :
    AreFor .index made ∧ finish .index made = .ok made := by
  obtain ⟨i, hi, h⟩ := bind_eq_ok.1 h
  have htexts := hfor.replaced "fields" (.list (i.fields.map .text))
  obtain ⟨hformade, hmade⟩ := htexts.completes (by decide) h
  have hfields : argument made "fields" = .list (i.fields.map .text) := by
    rw [hmade.argument_eq "fields" (by decide), argument_replaced (hfor.mem "fields" (by decide))]
  refine ⟨hformade, ?_⟩
  rw [finish, hfields, Index.make_texts (Index.fields_ne_nil_of_make hi), ok_bind, overFields,
    replaced_argument hformade.nodup hfields]
  exact hmade.again _

/-- **The action of a policy is a member after the first time.** -/
theorem finish_policy_again (hfor : AreFor .policy bound) (h : finish .policy bound = .ok made) :
    AreFor .policy made ∧ finish .policy made = .ok made := by
  obtain ⟨p, hp, h⟩ := bind_eq_ok.1 h
  have hmember := hfor.replaced "action" (.member (.policyAction p.action))
  obtain ⟨hformade, hmade⟩ := hmember.completes (by decide) h
  have haction : argument made "action" = .member (.policyAction p.action) := by
    rw [hmade.argument_eq "action" (by decide), argument_replaced (hfor.mem "action" (by decide))]
  have hkept (name : String) (hne : name ≠ "options") (hne' : name ≠ "action") :
      argument made name = argument bound name := by
    rw [hmade.argument_eq name hne, argument_replaced_of_ne hne']
  have hcondition : (argument made "condition").isTrue = true := by
    obtain ⟨-, hsame, -, hgiven⟩ := Policy.parts_of_make hp
    rwa [hkept "condition" (by decide) (by decide), ← hsame]
  refine ⟨hformade, ?_⟩
  rw [finish, haction, Policy.make_member hcondition, ok_bind,
    replaced_argument hformade.nodup haction]
  exact hmade.again _

theorem finish_trigger_again (hfor : AreFor .trigger bound)
    (h : finish .trigger bound = .ok made) :
    AreFor .trigger made ∧ finish .trigger made = .ok made := by
  rw [finish] at h
  split at h
  next hevents =>
    obtain ⟨hformade, hmade⟩ := hfor.completes (by decide) h
    refine ⟨hformade, ?_⟩
    rw [finish, hmade.argument_eq "events" (by decide), if_pos hevents]
    exact hmade.again _
  next => exact nomatch h

theorem finish_relationship_again (hfor : AreFor .relationship bound)
    (h : finish .relationship bound = .ok made) :
    AreFor .relationship made ∧ finish .relationship made = .ok made := by
  obtain ⟨r, hr, h⟩ := bind_eq_ok.1 h
  cases h
  have hmade := hfor.replaced "kind" (Vocabulary.toValue r.kind)
  have hkind := argument_replaced (hfor.mem "kind" (by decide)) (Vocabulary.toValue r.kind)
  have hname := argument_replaced_of_ne (by decide : "name" ≠ "kind")
    (Vocabulary.toValue r.kind) bound
  refine ⟨hmade, ?_⟩
  rw [finish, hkind, hname, Relationship.make_again hr, ok_bind,
    replaced_argument hmade.nodup hkind]
  rfl

theorem finish_table_again (hfor : AreFor .table bound) (h : finish .table bound = .ok made) :
    AreFor .table made ∧ finish .table made = .ok made := by
  obtain ⟨made', hown, h⟩ := bind_eq_ok.1 h
  obtain ⟨columns, hcolumns, h⟩ := bind_eq_ok.1 h
  obtain ⟨hcheck, rfl⟩ := check_eq_ok.1 h
  obtain ⟨hformade, hmade⟩ := hfor.completes (by decide) hown
  refine ⟨hformade, ?_⟩
  rw [finish, hmade.again, ok_bind, hmade.argument_eq "name" (by decide),
    hmade.argument_eq "fields" (by decide), hcolumns, ok_bind, hcheck]
  rfl

/-- **The columns of a composite are tuples in a list after the first time.** -/
theorem finish_customType_again (hfor : AreFor .customType bound)
    (h : finish .customType bound = .ok made) :
    AreFor .customType made ∧ finish .customType made = .ok made := by
  obtain ⟨t, ht, h⟩ := bind_eq_ok.1 h
  cases h
  have hread := hfor.replaced "kind" (Vocabulary.toValue t.kind)
  have hmade := hread.replaced "fields" t.fields
  have hfields := argument_replaced (hread.mem "fields" (by decide)) t.fields
  have hkept (name : String) (hne : name ≠ "fields") := argument_replaced_of_ne hne t.fields
    (replaced bound "kind" (Vocabulary.toValue t.kind))
  have hkind := (hkept "kind" (by decide)).trans
    (argument_replaced (hfor.mem "kind" (by decide)) (Vocabulary.toValue t.kind))
  have hother (name : String) (hne : name ≠ "fields") (hne' : name ≠ "kind") :=
    (hkept name hne).trans (argument_replaced_of_ne hne' (Vocabulary.toValue t.kind) bound)
  refine ⟨hmade, ?_⟩
  rw [finish, ofKind, hkind, hfields, hother "name" (by decide) (by decide),
    hother "values" (by decide) (by decide), hother "base_type" (by decide) (by decide),
    hother "constraint" (by decide) (by decide), CustomType.make_again ht, ok_bind, ofKind,
    replaced_argument hmade.nodup hkind, replaced_argument hmade.nodup hfields]
  rfl

/-- **Completed arguments are complete.** -/
theorem finish_again (hfor : AreFor kind bound) (h : finish kind bound = .ok made) :
    AreFor kind made ∧ finish kind made = .ok made := by
  cases kind with
  | field =>
    obtain ⟨hformade, hmade⟩ := hfor.completes (by decide) h
    exact ⟨hformade, hmade.again _⟩
  | function =>
    obtain ⟨hformade, hmade⟩ := hfor.completes (by decide) h
    exact ⟨hformade, hmade.again _⟩
  | view =>
    obtain ⟨hformade, hmade⟩ := hfor.completes (by decide) h
    exact ⟨hformade, hmade.again _⟩
  | storageBucket =>
    obtain ⟨hformade, hmade⟩ := hfor.completes (by decide) h
    exact ⟨hformade, hmade.again _⟩
  | index => exact finish_index_again hfor h
  | policy => exact finish_policy_again hfor h
  | trigger => exact finish_trigger_again hfor h
  | relationship => exact finish_relationship_again hfor h
  | table => exact finish_table_again hfor h
  | customType => exact finish_customType_again hfor h
  | schema =>
    obtain ⟨tables, htables, h'⟩ := bind_eq_ok.1 h
    obtain ⟨-, rfl⟩ := check_eq_ok.1 h'
    exact ⟨hfor, h⟩
  | _ =>
    cases h
    exact ⟨hfor, rfl⟩

end Finish

/-- An object is built from arguments for all of its parameters, which are completed. -/
def object (kind : RecordKind) (args : List (String × Value)) : Except Fault Value := do
  let bound ← bind (parameters kind) args
  return .record kind (← finish kind bound)

/-- An object is built from complete arguments as they are. -/
theorem object_of_finish {kind : RecordKind} {attributes : List (String × Value)}
    (hfor : AreFor kind attributes) (h : finish kind attributes = .ok attributes) :
    object kind attributes = .ok (.record kind attributes) := by
  rw [object, bind_self hfor (nodup_parameters kind), ok_bind, h]
  rfl

theorem object_again {kind : RecordKind} {v : Value} (h : object kind args = .ok v) :
    ∃ attributes, v = .record kind attributes ∧ object kind attributes = .ok v := by
  obtain ⟨bound, hbound, h⟩ := bind_eq_ok.1 h
  obtain ⟨made, hmade, h⟩ := bind_eq_ok.1 h
  cases h
  obtain ⟨hfor, hagain⟩ := finish_again (names_bind hbound) hmade
  exact ⟨made, rfl, object_of_finish hfor hagain⟩

/-! ### Iterators -/

/-- An iterator that has items makes the same index as the list of them. -/
theorem object_of_indexOver {items : List Value} (hitems : items ≠ []) {v : Value}
    (h : indexOver items args = .ok v) : object .index (("fields", .list items) :: args) = .ok v := by
  obtain ⟨bound, hbound, h⟩ := bind_eq_ok.1 h
  have hfields : argument bound "fields" = .list items :=
    argument_of_bind hbound (by decide) List.lookup_cons_self
  have hmake : Index.make (.list items) {} = .ok { fields := items.map Value.toText } :=
    if_pos (by simpa [Value.isTrue] using hitems)
  rw [object, hbound, ok_bind, finish, hfields, hmake, ok_bind]
  exact h

/-- So it is with a composite type. -/
theorem object_of_compositeOf {items : List Value} (hitems : items ≠ []) {v : Value}
    (h : compositeOf items args = .ok v) :
    object .customType (("kind", .member (.typeKind .composite)) :: ("fields", .list items) :: args) =
      .ok v := by
  obtain ⟨bound, hbound, h⟩ := bind_eq_ok.1 h
  obtain ⟨columns, hcolumns, h⟩ := bind_eq_ok.1 h
  have hkind : argument bound "kind" = .member (.typeKind .composite) :=
    argument_of_bind hbound (by decide) List.lookup_cons_self
  have hfields : argument bound "fields" = .list items :=
    argument_of_bind hbound (by decide) rfl
  have hmake (name values baseType constraint : Value) :
      CustomType.make name (.member (.typeKind .composite)) values (.list items) baseType constraint =
        .ok { name, kind := some .composite, values, fields := .list columns, baseType, constraint }
      := by
    refine (if_pos (by simpa [Value.isTrue] using hitems)).trans ?_
    rw [hcolumns]
    rfl
  rw [object, hbound, ok_bind, finish, hkind, hfields, hmake, ok_bind]
  exact h

end Construct

/-- **An object that was built can be built again from its attributes**, and so can a set of
options. -/
theorem construct_again {kind : RecordKind} {args : List (String × Value)} {v : Value}
    (h : construct kind args = .ok v) :
    ∃ attributes, v = .record kind attributes ∧ construct kind attributes = .ok v := by
  cases kind with
  | fieldOptions => exact OptionSet.optionSet_again (α := FieldOptions) h
  | indexOptions => exact OptionSet.optionSet_again (α := IndexOptions) h
  | policyOptions => exact OptionSet.optionSet_again (α := PolicyOptions) h
  | triggerOptions => exact OptionSet.optionSet_again (α := TriggerOptions) h
  | tableOptions => exact OptionSet.optionSet_again (α := TableOptions) h
  | functionOptions => exact OptionSet.optionSet_again (α := FunctionOptions) h
  | viewOptions => exact OptionSet.optionSet_again (α := ViewOptions) h
  | bucketOptions => exact OptionSet.optionSet_again (α := BucketOptions) h
  | _ => exact Construct.object_again h

end SchemaCompiler
