import SchemaCompiler.Proofs.Builder.Program
import SchemaCompiler.Proofs.Migration.Compilation
import SchemaCompiler.Proofs.Schema.Soundness
import SchemaCompiler.Schema.Construct

/-!
# Where custom types come from

A custom type is built from named arguments, read from a definition or declared to a builder.  Each
way has checks of its own, and all of them end in `CustomType.make`.  Only reading a definition asks
for a kind: in the other ways an absent kind is kept, and the data of such a type is not checked.

* `CustomType.Built` — a type that came about in one of the ways, and what was given for its kind;
* `CustomType.Describes` — the statements that say what a kind needs: labels, columns, a base type;
* `CustomType.createType_eq_ok_iff` — the statement for a sound type is one of these;
* `CustomType.sound_iff_of_built` — **a type is sound unless it was built without a kind**;
* `CustomType.domain_of_nothing` — a type without a kind is written as a domain over nothing.
-/

namespace SchemaCompiler

open Value
open Text (joinWith)

namespace CustomType

/-! ### The ways to a custom type -/

/-- The ways to a custom type. -/
inductive Way where
  | arguments | definition | declaration
  deriving DecidableEq

/-- A type came about in a way, where `kind` was given for its kind. -/
inductive Built : Way → Value → CustomType → Prop
  /-- It was built from named arguments. -/
  | arguments {args : List (String × Value)} {t : CustomType}
    (h : construct .customType args = .ok t.toValue) :
    Built .arguments (Construct.argument args "kind") t
  /-- It was read from a definition. -/
  | definition {d : Value} {t : CustomType} (h : ofValue d = .ok t) :
    Built .definition (d.settingOr "kind" .null) t
  /-- It was declared to a builder, which has recorded it last. -/
  | declaration {b after : Builder} {call : Call} {name kind : Value}
    {options : List (String × Value)} {t : CustomType}
    (hcall : Declaration.customType.signature.bind call = .ok ⟨[name, kind], options⟩)
    (h : b.step (.declare .customType call) = (after, .ok none))
    (hlast : after.recorded.customTypes = b.recorded.customTypes ++ [t]) :
    Built .declaration kind t

/-- A type is known by its record. -/
theorem toValue_injective {t u : CustomType} (h : t.toValue = u.toValue) : t = u := by
  obtain ⟨name, kind, values, fields, baseType, constraint⟩ := t
  obtain ⟨name', kind', values', fields', baseType', constraint'⟩ := u
  simp only [toValue, Value.record.injEq, List.cons.injEq, Prod.mk.injEq, true_and, and_true] at h
  obtain ⟨rfl, hkind, rfl, rfl, rfl, rfl⟩ := h
  have hsame : kind = kind' := by
    cases kind with
    | none =>
      cases kind' with
      | none => rfl
      | some m => exact nomatch hkind
    | some m =>
      cases kind' with
      | none => exact nomatch hkind
      | some m' =>
        cases hkind
        rfl
  rw [hsame]

/-- A parameter gets its argument, or what stands for it, and the others get theirs. -/
theorem fill_cons_eq_ok {given bound : List (String × Value)} {name : String}
    {standIn : Option Value} {parameters : List Parameter} :
    Parameter.fill given ((name, standIn) :: parameters) = .ok bound ↔
      ∃ value rest, (given.lookup name <|> standIn) = some value ∧
        Parameter.fill given parameters = .ok rest ∧ bound = (name, value) :: rest := by
  rw [Parameter.fill]
  cases given.lookup name <|> standIn with
  | none => simp
  | some value =>
    simp only [bind_eq_ok, pure_eq_ok, Except.ok.injEq, Option.some.injEq, exists_and_left,
      exists_eq_left']
    simp only [eq_comm]

/-- What a type was made of is what it has, but for its kind and its columns, which are read. -/
theorem parts_of_make {name kind values fields baseType constraint : Value} {t : CustomType}
    (h : make name kind values fields baseType constraint = .ok t) :
    t.name = name ∧ t.values = values ∧ t.baseType = baseType ∧ t.constraint = constraint ∧
      Vocabulary.read TypeKind kind "custom type kind" = .ok t.kind := by
  obtain ⟨found, hfound, h⟩ := bind_eq_ok.1 h
  rw [hfound]
  cases found with
  | none =>
    cases h
    exact ⟨rfl, rfl, rfl, rfl, rfl⟩
  | some m =>
    cases m with
    | enum =>
      dsimp only at h
      split at h
      next =>
        cases h
        exact ⟨rfl, rfl, rfl, rfl, rfl⟩
      next => exact nomatch h
    | composite =>
      dsimp only at h
      split at h
      next =>
        obtain ⟨columns, -, h⟩ := bind_eq_ok.1 h
        cases h
        exact ⟨rfl, rfl, rfl, rfl, rfl⟩
      next => exact nomatch h
    | domain =>
      dsimp only at h
      split at h
      next => exact nomatch h
      next =>
        cases h
        exact ⟨rfl, rfl, rfl, rfl, rfl⟩

/-- The record that is built from named arguments is that of a type that was made of them. -/
theorem make_of_construct {args : List (String × Value)} {v : Value}
    (h : construct .customType args = .ok v) :
    ∃ name values fields baseType constraint t, v = t.toValue ∧
      make name (Construct.argument args "kind") values fields baseType constraint = .ok t := by
  obtain ⟨bound, hbound, h⟩ := bind_eq_ok.1 h
  obtain ⟨finished, hfinished, h⟩ := bind_eq_ok.1 h
  cases h
  unfold Construct.bind at hbound
  split at hbound
  next => exact nomatch hbound
  next =>
    simp only [Construct.parameters, fill_cons_eq_ok] at hbound
    obtain ⟨name, _, -, ⟨kind, _, hkind, ⟨values, _, -, ⟨fields, _, -, ⟨baseType, _, -,
      ⟨constraint, _, -, hnil, rfl⟩, rfl⟩, rfl⟩, rfl⟩, rfl⟩, rfl⟩ := hbound
    cases hnil
    have hgiven : Construct.argument args "kind" = kind := by
      rw [Construct.argument]
      cases hlookup : args.lookup "kind" with
      | none =>
        rw [hlookup] at hkind
        exact nomatch hkind
      | some found =>
        rw [hlookup] at hkind
        exact Option.some.inj hkind
    obtain ⟨t, ht, hfinished⟩ := bind_eq_ok.1 hfinished
    cases hfinished
    refine ⟨name, values, fields, baseType, constraint, t, ?_, hgiven ▸ ht⟩
    have hmake : make name kind values fields baseType constraint = .ok t := ht
    obtain ⟨rfl, rfl, rfl, rfl, -⟩ := parts_of_make hmake
    rfl

/-- Whatever the way to a type, it was made of its data. -/
theorem Built.exists_make {way : Way} {kind : Value} {t : CustomType} (h : Built way kind t) :
    ∃ name values fields baseType constraint,
      make name kind values fields baseType constraint = .ok t := by
  cases h with
  | arguments h =>
    obtain ⟨name, values, fields, baseType, constraint, u, hvalue, hmake⟩ := make_of_construct h
    rw [toValue_injective hvalue]
    exact ⟨name, values, fields, baseType, constraint, hmake⟩
  | definition h =>
    obtain ⟨name, -, h⟩ := bind_eq_ok.1 h
    obtain ⟨kind, hkind, h⟩ := bind_eq_ok.1 h
    obtain ⟨values, -, h⟩ := bind_eq_ok.1 h
    obtain ⟨fields, -, h⟩ := bind_eq_ok.1 h
    obtain ⟨baseType, -, h⟩ := bind_eq_ok.1 h
    obtain ⟨constraint, -, h⟩ := bind_eq_ok.1 h
    rw [settingOr_of_require hkind]
    exact ⟨name, values, fields, baseType, constraint, h⟩
  | @declaration b after call name kind options t hcall h hlast =>
    have hstep : b.changed (b.declare .customType call) = (after, .ok none) := h
    cases hdeclared : b.declare .customType call with
    | error fault =>
      rw [hdeclared] at hstep
      exact nomatch (Prod.mk.inj hstep).2
    | ok next =>
      rw [hdeclared] at hstep
      cases hstep
      obtain ⟨args, hargs, hdeclared⟩ := bind_eq_ok.1 hdeclared
      rw [hcall] at hargs
      cases hargs
      obtain ⟨recorded, hrecorded, hafter⟩ := bind_eq_ok.1 hdeclared
      cases hafter
      obtain ⟨-, -, hrecorded⟩ := bind_eq_ok.1 hrecorded
      obtain ⟨u, hmake, hrecorded⟩ := bind_eq_ok.1 hrecorded
      cases hrecorded
      cases List.append_cancel_left hlast
      exact ⟨name, _, _, _, _, hmake⟩

/-- What can be made of the arguments of a call can be declared, if its options are data of a
type. -/
theorem built_of_make (b : Builder) {call : Call} {name kind : Value}
    {options : List (String × Value)} {t : CustomType}
    (hcall : Declaration.customType.signature.bind call = .ok ⟨[name, kind], options⟩)
    (hknown : ∀ o ∈ options, o.1 ∈ Declaration.typeOptions)
    (hmake : make name kind ((options.lookup "values").getD .null)
      ((options.lookup "fields").getD .null) ((options.lookup "base_type").getD .null)
      ((options.lookup "constraint").getD .null) = .ok t) : Built .declaration kind t := by
  have hnone : (options.map Prod.fst).filter (fun key => !Declaration.typeOptions.contains key) =
      [] := by
    rw [List.filter_eq_nil_iff, List.forall_mem_map]
    intro o ho
    rw [List.contains_iff_mem.2 (hknown o ho)]
    exact Bool.false_ne_true
  have hcheck : Declaration.checkTypeOptions name options = .ok () := by
    rw [Declaration.checkTypeOptions, hnone, List.mergeSort_nil]
    rfl
  have hdeclare : Declaration.declare b.recorded .customType ⟨[name, kind], options⟩ =
      .ok { b.recorded with customTypes := b.recorded.customTypes ++ [t] } := by
    rw [Declaration.declare, hcheck, ok_bind]
    dsimp only
    rw [hmake]
    rfl
  exact .declaration hcall (Builder.step_declare b hcall hdeclare) rfl

/-! ### Statements for types -/

/-- The statement for a domain over a type. -/
def domainText (t : CustomType) (base : Value) : String :=
  "CREATE DOMAIN " ++ t.name.toText ++ " AS " ++ base.toText ++
    (if t.constraint.isTrue then
      " CONSTRAINT " ++ t.name.toText ++ "_check CHECK (" ++ t.constraint.toText ++ ")"
    else "") ++ ";"

/-- The statements that say what the kind of a type needs. -/
inductive Describes (t : CustomType) : String → Prop
  /-- An enum with some labels. -/
  | enum {labels : List Value} (hkind : t.kind = some .enum) (hvalues : t.values.items = .ok labels)
    (hfilled : labels ≠ []) :
    Describes t ("CREATE TYPE " ++ t.name.toText ++ " AS ENUM (" ++
      joinWith ", " (labels.map Sql.literal) ++ ");")
  /-- A composite with some columns, each a name and a type. -/
  | composite {columns : List (Value × Value)} {texts : List String}
    (hkind : t.kind = some .composite)
    (hfields : t.fields = .list (columns.map fun c => .tuple [c.1, c.2])) (hfilled : columns ≠ [])
    (htexts : List.Forall₂ (fun c text => ∃ type, Sql.typeName c.2 = .ok type ∧
      text = c.1.toText ++ " " ++ type.toText) columns texts) :
    Describes t ("CREATE TYPE " ++ t.name.toText ++ " AS (" ++ joinWith ", " texts ++ ");")
  /-- A domain over a type that is not absent. -/
  | domain {base : Value} (hkind : t.kind = some .domain)
    (hbase : Sql.typeName t.baseType = .ok base) (hgiven : base ≠ .null) :
    Describes t (t.domainText base)

/-- A type that can be written: its labels can be gone through, its columns are pairs of a name and
a type, and its types can be looked up. -/
structure Writable (t : CustomType) : Prop where
  labels : t.kind = some .enum → t.values.IsListing
  columns : t.kind = some .composite → ∀ columns, t.fields = .list columns → ∀ column ∈ columns,
    ∃ name type, column = .tuple [name, type] ∧ (Sql.identifier type).isHashable = true
  base : t.kind = some .domain → (Sql.identifier t.baseType).isHashable = true

/-- What counts as given and can be gone through holds something. -/
theorem ne_nil_of_isTrue {v : Value} (h : v.isTrue = true) {items : List Value}
    (hitems : v.items = .ok items) : items ≠ [] := by
  rintro rfl
  exact (isTrue_iff_not_isBlank (.inr ⟨[], hitems⟩)).1 h (.inr hitems)

/-- The name for a type is absent only if the type is. -/
theorem typeName_ne_null {type name : Value} (h : Sql.typeName type = .ok name) :
    name ≠ .null ↔ type ≠ .null := by
  unfold Sql.typeName at h
  cases type with
  | null =>
    cases h
    exact Iff.rfl
  | text s =>
    cases h
    simp
  | member m =>
    cases h
    simp
  | _ =>
    simp only [Sql.identifier] at h
    split at h
    next => cases h; simp
    next => exact nomatch h

theorem compositeColumn_eq_ok_iff {column : Value} (htuple : column.IsTuple) {text : String} :
    Sql.compositeColumn column = .ok text ↔ ∃ name type, column = .tuple [name, type] ∧
      ∃ known, Sql.typeName type = .ok known ∧ text = name.toText ++ " " ++ known.toText := by
  obtain ⟨parts, rfl⟩ := htuple
  have hitems : (Value.tuple parts).items = .ok parts := rfl
  rw [Sql.compositeColumn, hitems, ok_bind]
  split
  next name type =>
    simp only [bind_eq_ok, pure_eq_ok, Except.ok.injEq, Value.tuple.injEq, List.cons.injEq,
      and_true]
    constructor
    · rintro ⟨known, hknown, rfl⟩
      exact ⟨name, type, ⟨rfl, rfl⟩, known, hknown, rfl⟩
    · rintro ⟨_, _, ⟨rfl, rfl⟩, known, hknown, rfl⟩
      exact ⟨known, hknown, rfl⟩
  next hother =>
    constructor
    · intro h
      cases h
    · rintro ⟨name, type, heq, -⟩
      exact absurd (Value.tuple.inj heq) (hother name type)

/-- Columns whose texts were made are pairs of a name and a type. -/
theorem exists_pairs {columns : List Value} {texts : List String}
    (htuples : ∀ column ∈ columns, column.IsTuple)
    (h : columns.mapM Sql.compositeColumn = .ok texts) :
    ∃ pairs : List (Value × Value), columns = pairs.map (fun c => .tuple [c.1, c.2]) ∧
      List.Forall₂ (fun c text => ∃ type, Sql.typeName c.2 = .ok type ∧
        text = c.1.toText ++ " " ++ type.toText) pairs texts := by
  have hall := mapM_eq_ok.1 h
  clear h
  induction hall with
  | nil => exact ⟨[], rfl, .nil⟩
  | @cons column text columns texts hcolumn _ ih =>
    rw [List.forall_mem_cons] at htuples
    obtain ⟨pairs, rfl, hpairs⟩ := ih htuples.2
    obtain ⟨name, type, rfl, hmade⟩ := (compositeColumn_eq_ok_iff htuples.1).1 hcolumn
    exact ⟨(name, type) :: pairs, rfl, .cons hmade hpairs⟩

section Statements

variable {t : CustomType}

theorem createType_of_enum (h : t.kind = some .enum) : Sql.createType t = do
    let labels ← t.values.items
    return "CREATE TYPE " ++ t.name.toText ++ " AS ENUM (" ++
      joinWith ", " (labels.map Sql.literal) ++ ");" := by
  unfold Sql.createType
  rw [h]

theorem createType_of_composite (h : t.kind = some .composite) : Sql.createType t = do
    let columns ← t.fields.items
    let texts ← columns.mapM Sql.compositeColumn
    return "CREATE TYPE " ++ t.name.toText ++ " AS (" ++ joinWith ", " texts ++ ");" := by
  unfold Sql.createType
  rw [h]

theorem createType_of_other (henum : t.kind ≠ some .enum) (hcomposite : t.kind ≠ some .composite) :
    Sql.createType t = do
      let base ← Sql.typeName t.baseType
      return t.domainText base := by
  unfold Sql.createType
  split
  next h => exact absurd h henum
  next h => exact absurd h hcomposite
  next => rfl

/-- A type that was built without a kind is written as a domain, whatever its base type. -/
theorem createType_of_none (h : t.kind = none) {text : String} : Sql.createType t = .ok text ↔
    ∃ base, Sql.typeName t.baseType = .ok base ∧ text = t.domainText base := by
  rw [createType_of_other (by simp [h]) (by simp [h]), bind_eq_ok]
  simp only [pure_eq_ok, Except.ok.injEq]
  exact exists_congr fun base => and_congr_right fun _ => eq_comm

theorem Describes.createType_eq {text : String} (h : t.Describes text) :
    Sql.createType t = .ok text := by
  cases h with
  | enum hkind hvalues _ =>
    rw [createType_of_enum hkind, hvalues]
    rfl
  | @composite columns texts hkind hfields _ htexts =>
    have hcolumns : (columns.map fun c => Value.tuple [c.1, c.2]).mapM Sql.compositeColumn =
        .ok texts := by
      rw [mapM_eq_ok, List.forall₂_map_left_iff]
      refine htexts.imp fun c text hc => ?_
      exact (compositeColumn_eq_ok_iff ⟨_, rfl⟩).2 ⟨c.1, c.2, rfl, hc⟩
    have hitems : ∀ vs, (Value.list vs).items = .ok vs := fun _ => rfl
    rw [createType_of_composite hkind, hfields, hitems, ok_bind, hcolumns]
    rfl
  | domain hkind hbase _ =>
    rw [createType_of_other (by simp [hkind]) (by simp [hkind]), hbase]
    rfl

section Sound

variable (h : t.Sound)
include h

theorem Sound.exists_kind : ∃ m, t.kind = some m := by
  obtain ⟨m, hm⟩ := h.kind
  cases hkind : t.kind with
  | none =>
    have hnull : t.toValue.shown "kind" = .null := by
      show Vocabulary.toValue t.kind = .null
      rw [hkind]
      rfl
    rw [hnull] at hm
    exact nomatch hm
  | some m => exact ⟨m, rfl⟩

/-- What the statement for a sound type says. -/
theorem Sound.describes {text : String} (htext : Sql.createType t = .ok text) :
    t.Describes text := by
  obtain ⟨m, hkind⟩ := h.exists_kind
  have hshown : t.toValue.shown "kind" = .member (.typeKind m) := by
    show Vocabulary.toValue t.kind = _
    rw [hkind]
    rfl
  cases m with
  | enum =>
    rw [createType_of_enum hkind] at htext
    obtain ⟨labels, hlabels, htext⟩ := bind_eq_ok.1 htext
    cases htext
    exact .enum hkind hlabels (ne_nil_of_isTrue (h.values hshown) hlabels)
  | composite =>
    obtain ⟨columns, hcolumns, hfilled, htuples⟩ := h.fields hshown
    have hfields : t.fields = .list columns := hcolumns
    have hitems : ∀ vs, (Value.list vs).items = .ok vs := fun _ => rfl
    rw [createType_of_composite hkind, hfields, hitems, ok_bind] at htext
    obtain ⟨texts, htexts, htext⟩ := bind_eq_ok.1 htext
    cases htext
    obtain ⟨pairs, rfl, hpairs⟩ := exists_pairs htuples htexts
    exact .composite hkind hfields (by simpa using hfilled) hpairs
  | domain =>
    rw [createType_of_other (by simp [hkind]) (by simp [hkind])] at htext
    obtain ⟨base, hbase, htext⟩ := bind_eq_ok.1 htext
    cases htext
    exact .domain hkind hbase ((typeName_ne_null hbase).2 (h.baseType hshown))

/-- **The statement for a sound type says what its kind needs**, and every such statement is the one
that is made. -/
theorem Sound.createType_eq_ok_iff {text : String} :
    Sql.createType t = .ok text ↔ t.Describes text :=
  ⟨h.describes, Describes.createType_eq⟩

/-- A statement is made for a sound type if its data can be written. -/
theorem Sound.succeeds_createType_iff : Succeeds (Sql.createType t) ↔ t.Writable := by
  obtain ⟨m, hkind⟩ := h.exists_kind
  have hshown : t.toValue.shown "kind" = .member (.typeKind m) := by
    show Vocabulary.toValue t.kind = _
    rw [hkind]
    rfl
  cases m with
  | enum =>
    rw [createType_of_enum hkind, succeeds_bind_pure]
    constructor
    · intro hlabels
      exact ⟨fun _ => hlabels, by simp [hkind], by simp [hkind]⟩
    · intro hwritable
      exact hwritable.labels hkind
  | composite =>
    obtain ⟨columns, hcolumns, -, htuples⟩ := h.fields hshown
    have hfields : t.fields = .list columns := hcolumns
    have hitems : ∀ vs, (Value.list vs).items = .ok vs := fun _ => rfl
    have hcolumn : ∀ column ∈ columns, Succeeds (Sql.compositeColumn column) ↔
        ∃ name type, column = .tuple [name, type] ∧
          (Sql.identifier type).isHashable = true := by
      intro column hmem
      constructor
      · rintro ⟨text, htext⟩
        obtain ⟨name, type, heq, known, hknown, -⟩ :=
          (compositeColumn_eq_ok_iff (htuples column hmem)).1 htext
        exact ⟨name, type, heq, Sql.succeeds_typeName_iff.1 ⟨known, hknown⟩⟩
      · rintro ⟨name, type, heq, hkey⟩
        obtain ⟨known, hknown⟩ := Sql.succeeds_typeName_iff.2 hkey
        exact ⟨_, (compositeColumn_eq_ok_iff (htuples column hmem)).2
          ⟨name, type, heq, known, hknown, rfl⟩⟩
    rw [createType_of_composite hkind, hfields, hitems, ok_bind, succeeds_bind_pure,
      succeeds_mapM, forall₂_congr hcolumn]
    constructor
    · intro hall
      refine ⟨by simp [hkind], fun _ columns' hcolumns' => ?_, by simp [hkind]⟩
      rw [hfields] at hcolumns'
      cases hcolumns'
      exact hall
    · intro hwritable
      exact hwritable.columns hkind columns hfields
  | domain =>
    rw [createType_of_other (by simp [hkind]) (by simp [hkind]), succeeds_bind_pure,
      Sql.succeeds_typeName_iff]
    constructor
    · intro hbase
      exact ⟨by simp [hkind], by simp [hkind], fun _ => hbase⟩
    · intro hwritable
      exact hwritable.base hkind

end Sound

end Statements

/-! ### Soundness -/

/-- **A type is sound unless it was built without a kind.**  Let a type come about in any way, from
whatever was given.

It has one of the three kinds and what this kind needs if and only if something was given for its
kind, and for a type that was read from a definition this is always so.  The statement for such a
type says what its kind needs: some labels, some columns, or a base type that is not absent; it is
made if the data can be written.  A type that was built without a kind has none, and is written as
a domain over its base type, be that absent or not. -/
theorem sound_iff_of_built {way : Way} {kind : Value} {t : CustomType} (h : Built way kind t) :
    (t.Sound ↔ kind ≠ .null) ∧ (way = .definition → t.Sound) ∧
    (t.Sound → (∃ m, t.kind = some m) ∧
      (∀ text, Sql.createType t = .ok text ↔ t.Describes text) ∧
      (Succeeds (Sql.createType t) ↔ t.Writable)) ∧
    (¬t.Sound → t.kind = none ∧ ∀ text, Sql.createType t = .ok text ↔
      ∃ base, Sql.typeName t.baseType = .ok base ∧ text = t.domainText base) := by
  obtain ⟨name, values, fields, baseType, constraint, hmake⟩ := h.exists_make
  have hsound (hkind : kind ≠ .null) : t.Sound := sound_of_make hkind hmake
  have hnone (hkind : kind = .null) : t.kind = none := by
    have hread := (parts_of_make hmake).2.2.2.2
    rw [hkind] at hread
    exact (Except.ok.inj hread).symm
  have hunsound (hkind : kind = .null) : ¬t.Sound := by
    intro hs
    obtain ⟨m, hm⟩ := hs.exists_kind
    rw [hnone hkind] at hm
    exact nomatch hm
  refine ⟨⟨fun hs hkind => hunsound hkind hs, hsound⟩, ?_, fun hs => ?_, fun hs => ?_⟩
  · intro hway
    cases h with
    | definition h => exact (CustomType.sound_of_reading h).1
    | arguments h => exact nomatch hway
    | declaration hcall h hlast => exact nomatch hway
  · exact ⟨hs.exists_kind, fun text => hs.createType_eq_ok_iff, hs.succeeds_createType_iff⟩
  · have hkind : t.kind = none := hnone (Classical.byContradiction fun hne => hs (hsound hne))
    exact ⟨hkind, fun text => createType_of_none hkind⟩

/-- The type of an address, declared with its kind in capitals and a mapping for its columns. -/
def addressCall : Call where
  positional := [.text "address", .text "COMPOSITE"]
  named := [("fields", .mapping [(.text "street", .text "string"), (.text "zip", .text "text")])]

/-- The type that is made of it. -/
def address : CustomType where
  name := .text "address"
  kind := some .composite
  fields := .list [.tuple [.text "street", .text "string"], .tuple [.text "zip", .text "text"]]

/-- It is sound, and its statement has both columns. -/
theorem built_address : Built .declaration (.text "COMPOSITE") address ∧ address.Sound ∧
    address.Describes "CREATE TYPE address AS (street text, zip text);" := by
  have hcall : Declaration.customType.signature.bind addressCall =
      .ok ⟨addressCall.positional, addressCall.named⟩ := rfl
  have hbuilt : Built .declaration (.text "COMPOSITE") address :=
    built_of_make {} hcall (by decide) rfl
  obtain ⟨hsound, -, hwritten, -⟩ := sound_iff_of_built hbuilt
  have haddress := hsound.2 (by simp)
  exact ⟨hbuilt, haddress, ((hwritten haddress).2.1 _).1 rfl⟩

/-- A type that has nothing but a name. -/
def mood : CustomType where
  name := .text "mood"
  kind := none

/-- **A type without a kind is written as a domain over nothing**, whether it was declared to a
builder or built from named arguments. -/
theorem domain_of_nothing : Built .declaration .null mood ∧ Built .arguments .null mood ∧
    mood.baseType = .null ∧ ¬mood.Sound ∧
    Sql.createType mood = .ok "CREATE DOMAIN mood AS None;" := by
  have hdeclared : Built .declaration .null mood := by
    have hcall : Declaration.customType.signature.bind ⟨[.text "mood", .null], []⟩ =
        .ok ⟨[.text "mood", .null], []⟩ := rfl
    exact built_of_make {} hcall nofun rfl
  have hbuilt : Built .arguments .null mood := by
    have hrecord : construct .customType [("name", .text "mood"), ("kind", .null)] =
        .ok mood.toValue := rfl
    exact .arguments hrecord
  have hunsound : ¬mood.Sound := by
    intro h
    obtain ⟨m, hm⟩ := h.exists_kind
    exact nomatch hm
  exact ⟨hdeclared, hbuilt, rfl, hunsound, rfl⟩

end CustomType
end SchemaCompiler
