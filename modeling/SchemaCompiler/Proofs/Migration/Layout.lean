import Mathlib
import SchemaCompiler.Proofs.Migration.Rendering

/-!
# The layout of a migration

Where each object of a schema has its statements.

* `Table.size`, `StorageBucket.size` — how many statements an object has;
* `Stands` — what stands at a place of a migration is the text of a block;
* `Layout` — **the places of all objects of a schema**: custom types, tables, functions, views and
  buckets, each kind after the other and each object after those declared before it;
* `layout_of_compileSchema` — what a schema compiles to has this layout;
* `SchemaObject`, `Schema.objects` — the objects of a schema in one list;
* `exists_blocks_of_objects` — two lists of schemas that differ in one object compile to the same
  statements before and after those of the object;
* `complete_of_compile` — **nothing is lost, repeated or moved.**
-/

namespace SchemaCompiler

/-! ### Places in lists -/

section Places

variable {α β : Type}

theorem getElem?_append_left' {xs ys : List α} {n : Nat} {x : α} (h : xs[n]? = some x) :
    (xs ++ ys)[n]? = some x := by
  obtain ⟨hn, -⟩ := List.getElem?_eq_some_iff.1 h
  rw [List.getElem?_append_left hn, h]

theorem getElem?_append_right' {xs ys : List α} {m n : Nat} {x : α} (h : ys[n]? = some x)
    (hm : m = xs.length + n) : (xs ++ ys)[m]? = some x := by
  subst hm
  rw [List.getElem?_append_right (Nat.le_add_right _ _), Nat.add_sub_cancel_left, h]

/-- The parts of an item stand after the parts of all items before it. -/
theorem getElem?_flatMap {parts : α → List β} {xs : List α} {i j : Nat} {x : α} {y : β}
    (hx : xs[i]? = some x) (hy : (parts x)[j]? = some y) :
    (xs.flatMap parts)[((xs.take i).map fun z => (parts z).length).sum + j]? = some y := by
  induction xs generalizing i with
  | nil => exact nomatch hx
  | cons z xs ih =>
    rw [List.flatMap_cons]
    cases i with
    | zero =>
      rw [List.getElem?_cons_zero, Option.some.injEq] at hx
      subst hx
      rw [List.take_zero, List.map_nil, List.sum_nil, Nat.zero_add]
      exact getElem?_append_left' hy
    | succ i =>
      rw [List.getElem?_cons_succ] at hx
      refine getElem?_append_right' (ih hx) ?_
      rw [List.take_succ_cons, List.map_cons, List.sum_cons, Nat.add_assoc]

end Places

/-! ### Sizes -/

/-- How many statements a list takes that is written as one, if there is anything in it. -/
def oneIfAny {α : Type} (xs : List α) : Nat := (!xs.isEmpty).toNat

/-- How many statements a table has: the table itself, its row level security, and one each for its
policies, indexes and triggers, where there are any. -/
def Table.size (t : Table) : Nat :=
  1 + t.rlsEnabled.toNat + oneIfAny t.policies + oneIfAny t.indexes + oneIfAny t.triggers

/-- How many statements a bucket has. -/
def StorageBucket.size (b : StorageBucket) : Nat := 1 + b.policies.length

/-- How many statements all objects of a schema have. -/
def Schema.size (s : Schema) : Nat :=
  s.customTypes.length + (s.tables.map Table.size).sum + s.functions.length + s.views.length +
    (s.storageBuckets.map StorageBucket.size).sum

theorem length_ite_toNat {α : Type} (p : Bool) (x : α) :
    (if p then [x] else []).length = p.toNat := by
  cases p <;> rfl

theorem length_ite_oneIfAny {α β : Type} (xs : List α) (y : β) :
    (if xs.isEmpty then [] else [y]).length = oneIfAny xs := by
  unfold oneIfAny
  cases xs.isEmpty <;> rfl

theorem getElem?_ite_oneIfAny {α β : Type} {xs : List α} (h : xs ≠ []) (y : β) :
    (if xs.isEmpty then [] else [y])[0]? = some y := by
  rw [if_neg (mt List.isEmpty_iff.1 h)]
  rfl

theorem Table.length_statements (t : Table) : t.statements.length = t.size := by
  simp only [statements, size, List.length_cons, List.length_append, length_ite_toNat,
    length_ite_oneIfAny]
  omega

theorem StorageBucket.length_statements (b : StorageBucket) : b.statements.length = b.size := by
  rw [statements, List.length_cons, List.length_map, size, Nat.add_comm]

theorem Schema.length_statements (s : Schema) : s.statements.length = s.size := by
  simp only [statements, size, List.length_append, List.length_map, List.length_flatMap,
    Table.length_statements, StorageBucket.length_statements]

/-! ### The layout of a schema -/

/-- What stands at a place of a migration is the text of a block. -/
def Stands (texts : List String) (place : Nat) (b : Statement) : Prop :=
  ∃ text, texts[place]? = some text ∧ b.render.outcome = .ok text

theorem stands_of_getElem? {blocks : List Statement} {texts : List String}
    (h : renderTexts blocks = .ok texts) {place : Nat} {b : Statement}
    (hb : blocks[place]? = some b) : Stands texts place b := by
  have hall := mapM_eq_ok.1 h
  obtain ⟨hplace, hb⟩ := List.getElem?_eq_some_iff.1 hb
  have hplace' : place < texts.length := hall.length_eq ▸ hplace
  refine ⟨texts[place], List.getElem?_eq_getElem hplace', ?_⟩
  rw [← hb]
  exact hall.get hplace hplace'

/-- The statements of a table from a place on: what there is of row level security, policies,
indexes and triggers follows the table in this order. -/
structure TableLayout (texts : List String) (start : Nat) (t : Table) : Prop where
  table : Stands texts start (.table t)
  rowSecurity : t.rlsEnabled = true → Stands texts (start + 1) (.rowSecurity t)
  policies : t.policies ≠ [] → Stands texts (start + 1 + t.rlsEnabled.toNat) (.policies t)
  indexes : t.indexes ≠ [] →
    Stands texts (start + 1 + t.rlsEnabled.toNat + oneIfAny t.policies) (.indexes t)
  triggers : t.triggers ≠ [] →
    Stands texts (start + 1 + t.rlsEnabled.toNat + oneIfAny t.policies + oneIfAny t.indexes)
      (.triggers t)

/-- The places of the objects of a schema. -/
structure Layout (s : Schema) (texts : List String) : Prop where
  length_eq : texts.length = s.size
  customType : ∀ i t, s.customTypes[i]? = some t → Stands texts i (.customType t)
  table : ∀ i t, s.tables[i]? = some t →
    TableLayout texts (s.customTypes.length + ((s.tables.take i).map Table.size).sum) t
  function : ∀ i f, s.functions[i]? = some f →
    Stands texts (s.customTypes.length + (s.tables.map Table.size).sum + i) (.function f)
  view : ∀ i v, s.views[i]? = some v →
    Stands texts (s.customTypes.length + (s.tables.map Table.size).sum + s.functions.length + i)
      (.view v)
  storageBucket : ∀ i b, s.storageBuckets[i]? = some b →
    Stands texts (s.customTypes.length + (s.tables.map Table.size).sum + s.functions.length +
      s.views.length + ((s.storageBuckets.take i).map StorageBucket.size).sum) (.bucket b)
  bucketPolicy : ∀ i b j p, s.storageBuckets[i]? = some b → b.policies[j]? = some p →
    Stands texts (s.customTypes.length + (s.tables.map Table.size).sum + s.functions.length +
      s.views.length + ((s.storageBuckets.take i).map StorageBucket.size).sum + 1 + j)
      (.bucketPolicy b p)

section Blocks

variable {s : Schema} {b : Statement}

theorem Table.statements_rowSecurity {t : Table} (h : t.rlsEnabled = true) :
    t.statements[1]? = some (.rowSecurity t) := by
  rw [statements, h]
  rfl

theorem Table.statements_policies {t : Table} (h : t.policies ≠ []) :
    t.statements[1 + t.rlsEnabled.toNat]? = some (.policies t) := by
  have hpolicies := getElem?_ite_oneIfAny h (Statement.policies t)
  rw [statements, Nat.add_comm, List.getElem?_cons_succ]
  refine getElem?_append_left' (getElem?_append_left' (getElem?_append_right' hpolicies ?_))
  rw [length_ite_toNat, Nat.add_zero]

theorem Table.statements_indexes {t : Table} (h : t.indexes ≠ []) :
    t.statements[1 + t.rlsEnabled.toNat + oneIfAny t.policies]? = some (.indexes t) := by
  have hindexes := getElem?_ite_oneIfAny h (Statement.indexes t)
  rw [statements, Nat.add_assoc, Nat.add_comm, List.getElem?_cons_succ]
  refine getElem?_append_left' (getElem?_append_right' hindexes ?_)
  rw [List.length_append, length_ite_toNat, length_ite_oneIfAny, Nat.add_zero]

theorem Table.statements_triggers {t : Table} (h : t.triggers ≠ []) :
    t.statements[1 + t.rlsEnabled.toNat + oneIfAny t.policies + oneIfAny t.indexes]? =
      some (.triggers t) := by
  have htriggers := getElem?_ite_oneIfAny h (Statement.triggers t)
  rw [statements, Nat.add_assoc, Nat.add_assoc, Nat.add_comm, List.getElem?_cons_succ]
  refine getElem?_append_right' htriggers ?_
  rw [List.length_append, List.length_append, length_ite_toNat, length_ite_oneIfAny,
    length_ite_oneIfAny]
  omega

theorem Schema.statements_customType {i : Nat} {t : CustomType} (h : s.customTypes[i]? = some t) :
    s.statements[i]? = some (.customType t) := by
  have hblock : (s.customTypes.map Statement.customType)[i]? = some (.customType t) := by
    rw [List.getElem?_map, h]
    rfl
  exact getElem?_append_left' (getElem?_append_left' (getElem?_append_left'
    (getElem?_append_left' hblock)))

theorem Schema.statements_table {i j : Nat} {t : Table} (h : s.tables[i]? = some t)
    (hb : t.statements[j]? = some b) :
    s.statements[s.customTypes.length + ((s.tables.take i).map Table.size).sum + j]? = some b := by
  have hblock := getElem?_flatMap h hb
  simp only [Table.length_statements] at hblock
  refine getElem?_append_left' (getElem?_append_left' (getElem?_append_left'
    (getElem?_append_right' hblock ?_)))
  rw [List.length_map, Nat.add_assoc]

theorem Schema.statements_function {i : Nat} {f : Function} (h : s.functions[i]? = some f) :
    s.statements[s.customTypes.length + (s.tables.map Table.size).sum + i]? =
      some (.function f) := by
  have hblock : (s.functions.map Statement.function)[i]? = some (.function f) := by
    rw [List.getElem?_map, h]
    rfl
  refine getElem?_append_left' (getElem?_append_left' (getElem?_append_right' hblock ?_))
  simp only [List.length_append, List.length_map, List.length_flatMap, Table.length_statements]

theorem Schema.statements_view {i : Nat} {v : View} (h : s.views[i]? = some v) :
    s.statements[s.customTypes.length + (s.tables.map Table.size).sum + s.functions.length + i]? =
      some (.view v) := by
  have hblock : (s.views.map Statement.view)[i]? = some (.view v) := by
    rw [List.getElem?_map, h]
    rfl
  refine getElem?_append_left' (getElem?_append_right' hblock ?_)
  simp only [List.length_append, List.length_map, List.length_flatMap, Table.length_statements]

theorem Schema.statements_bucket {i j : Nat} {u : StorageBucket}
    (h : s.storageBuckets[i]? = some u) (hb : u.statements[j]? = some b) :
    s.statements[s.customTypes.length + (s.tables.map Table.size).sum + s.functions.length +
      s.views.length + ((s.storageBuckets.take i).map StorageBucket.size).sum + j]? = some b := by
  have hblock := getElem?_flatMap h hb
  simp only [StorageBucket.length_statements] at hblock
  refine getElem?_append_right' hblock ?_
  simp only [List.length_append, List.length_map, List.length_flatMap, Table.length_statements]
  exact Nat.add_assoc _ _ _

end Blocks

/-- **What a schema compiles to has its layout.** -/
theorem layout_of_compileSchema {s : Schema} {texts : List String}
    (h : (compileSchema s).outcome = .ok texts) : Layout s texts := by
  rw [outcome_compileSchema] at h
  constructor
  · rw [← s.length_statements]
    exact (mapM_eq_ok.1 h).length_eq.symm
  · intro i t ht
    exact stands_of_getElem? h (Schema.statements_customType ht)
  · intro i t ht
    have hstands : ∀ {j place b}, t.statements[j]? = some b →
        place = s.customTypes.length + ((s.tables.take i).map Table.size).sum + j →
        Stands texts place b := by
      rintro j place b hb rfl
      exact stands_of_getElem? h (Schema.statements_table ht hb)
    constructor
    · exact hstands (List.getElem?_cons_zero) rfl
    · exact fun hrls => hstands (Table.statements_rowSecurity hrls) rfl
    · exact fun hp => hstands (Table.statements_policies hp) (by omega)
    · exact fun hi => hstands (Table.statements_indexes hi) (by omega)
    · exact fun hg => hstands (Table.statements_triggers hg) (by omega)
  · intro i f hf
    exact stands_of_getElem? h (Schema.statements_function hf)
  · intro i v hv
    exact stands_of_getElem? h (Schema.statements_view hv)
  · intro i u hu
    exact stands_of_getElem? h (Schema.statements_bucket hu List.getElem?_cons_zero)
  · intro i u j p hu hp
    have hblock : u.statements[1 + j]? = some (.bucketPolicy u p) := by
      rw [StorageBucket.statements, Nat.add_comm, List.getElem?_cons_succ, List.getElem?_map, hp]
      rfl
    exact stands_of_getElem? h (Nat.add_assoc _ 1 j ▸ Schema.statements_bucket hu hblock)

/-! ### Objects -/

/-- An object of a schema. -/
inductive SchemaObject where
  | customType (t : CustomType)
  | table (t : Table)
  | function (f : Function)
  | view (v : View)
  | storageBucket (b : StorageBucket)

/-- The blocks for an object. -/
def SchemaObject.statements : SchemaObject → List Statement
  | .customType t => [.customType t]
  | .table t => t.statements
  | .function f => [.function f]
  | .view v => [.view v]
  | .storageBucket b => b.statements

/-- How many statements an object has. -/
def SchemaObject.size : SchemaObject → Nat
  | .table t => t.size
  | .storageBucket b => b.size
  | _ => 1

/-- All objects of a schema, kind by kind. -/
def Schema.objects (s : Schema) : List SchemaObject :=
  s.customTypes.map .customType ++ s.tables.map .table ++ s.functions.map .function ++
    s.views.map .view ++ s.storageBuckets.map .storageBucket

theorem SchemaObject.length_statements (o : SchemaObject) : o.statements.length = o.size := by
  cases o with
  | table t => exact t.length_statements
  | storageBucket b => exact b.length_statements
  | _ => rfl

theorem Schema.statements_eq (s : Schema) :
    s.statements = s.objects.flatMap SchemaObject.statements := by
  simp only [objects, statements, List.flatMap_append, List.flatMap_map, SchemaObject.statements,
    ← List.map_eq_flatMap]

theorem flatMap_statements (schemas : List Schema) : schemas.flatMap Schema.statements =
    (schemas.flatMap Schema.objects).flatMap SchemaObject.statements := by
  rw [List.flatMap_assoc]
  exact congrArg (schemas.flatMap ·) (funext Schema.statements_eq)

/-- What compiles in sequence compiles in parts. -/
theorem renderTexts_append_eq_ok {bs cs : List Statement} {texts : List String} :
    renderTexts (bs ++ cs) = .ok texts ↔ ∃ before after, renderTexts bs = .ok before ∧
      renderTexts cs = .ok after ∧ texts = before ++ after := by
  rw [renderTexts_append]
  constructor
  · intro h
    obtain ⟨before, hbefore, h⟩ := bind_eq_ok.1 h
    obtain ⟨after, hafter, h⟩ := bind_eq_ok.1 h
    exact ⟨before, after, hbefore, hafter, (Except.ok.inj h).symm⟩
  · rintro ⟨before, after, hbefore, hafter, rfl⟩
    rw [hbefore, hafter]
    rfl

/-- The statements before an object, those of the object, and those after it. -/
theorem exists_blocks_of_objects {schemas : List Schema} {texts : List String}
    (h : (compile schemas).outcome = .ok texts) {before after : List SchemaObject}
    {o : SchemaObject} (hobjects : schemas.flatMap Schema.objects = before ++ o :: after) :
    ∃ front block back, texts = front ++ block ++ back ∧
      renderTexts (before.flatMap SchemaObject.statements) = .ok front ∧
      renderTexts o.statements = .ok block ∧
      renderTexts (after.flatMap SchemaObject.statements) = .ok back := by
  rw [outcome_compile, flatMap_statements, hobjects, List.flatMap_append, List.flatMap_cons,
    ← List.append_assoc] at h
  obtain ⟨most, back, hmost, hback, rfl⟩ := renderTexts_append_eq_ok.1 h
  obtain ⟨front, block, hfront, hblock, rfl⟩ := renderTexts_append_eq_ok.1 hmost
  exact ⟨front, block, back, rfl, hfront, hblock, hback⟩

theorem length_of_renderTexts {objects : List SchemaObject} {texts : List String}
    (h : renderTexts (objects.flatMap SchemaObject.statements) = .ok texts) :
    texts.length = (objects.map SchemaObject.size).sum := by
  rw [← (mapM_eq_ok.1 h).length_eq, List.length_flatMap]
  simp only [SchemaObject.length_statements]

/-! ### Nothing is lost -/

/-- What the statements of several schemas are. -/
structure Complete (schemas : List Schema) (texts : List String) : Prop where
  /-- Each schema has statements of its own, none of them empty and all of them in their places, and
  there are no others. -/
  parts : ∃ parts, texts = parts.flatten ∧
    List.Forall₂ (fun s part => (compileSchema s).outcome = .ok part ∧ (∀ text ∈ part, text ≠ "") ∧
      Layout s part) schemas parts
  /-- What comes first and what comes then are compiled apart from each other. -/
  split : ∀ xs ys, schemas = xs ++ ys → ∃ first second, (compile xs).outcome = .ok first ∧
    (compile ys).outcome = .ok second ∧ texts = first ++ second
  /-- More schemas add their own statements at the end, or their own fault. -/
  more : ∀ ys, (compile (schemas ++ ys)).outcome = (compile ys).outcome.map (texts ++ ·)
  /-- With another object in the place of one, the statements of this object are others, and all
  before and after them stay. -/
  replaced : ∀ before o o' after others texts',
    schemas.flatMap Schema.objects = before ++ o :: after →
    others.flatMap Schema.objects = before ++ o' :: after →
    (compile others).outcome = .ok texts' →
    ∃ front block block' back, texts = front ++ block ++ back ∧
      texts' = front ++ block' ++ back ∧
      front.length = (before.map SchemaObject.size).sum ∧
      renderTexts o.statements = .ok block ∧ renderTexts o'.statements = .ok block'

/-- **Nothing is lost, repeated or moved** where schemas compile. -/
theorem complete_of_compile {schemas : List Schema} {texts : List String}
    (h : (compile schemas).outcome = .ok texts) : Complete schemas texts := by
  constructor
  · have hparts := h
    rw [outcome_compile, renderTexts_flatMap, map_eq_ok] at hparts
    obtain ⟨parts, hparts, rfl⟩ := hparts
    refine ⟨parts, rfl, (mapM_eq_ok.1 hparts).imp fun s part hpart => ?_⟩
    have hschema := (outcome_compileSchema s).trans hpart
    exact ⟨hschema, ne_empty_of_renderTexts hpart, layout_of_compileSchema hschema⟩
  · rintro xs ys rfl
    rw [compile_append] at h
    obtain ⟨first, hfirst, h⟩ := bind_eq_ok.1 h
    obtain ⟨second, hsecond, h⟩ := bind_eq_ok.1 h
    exact ⟨first, second, hfirst, hsecond, (Except.ok.inj h).symm⟩
  · intro ys
    rw [compile_append, h, ok_bind]
    cases (compile ys).outcome <;> rfl
  · intro before o o' after others texts' hobjects hobjects' hothers
    obtain ⟨front, block, back, hsplit, hfront, hblock, hback⟩ :=
      exists_blocks_of_objects h hobjects
    obtain ⟨front', block', back', hsplit', hfront', hblock', hback'⟩ :=
      exists_blocks_of_objects hothers hobjects'
    -- What stands before and after comes from the other objects alone, and these are the same.
    obtain rfl : front = front' := Except.ok.inj (hfront.symm.trans hfront')
    obtain rfl : back = back' := Except.ok.inj (hback.symm.trans hback')
    exact ⟨front, block, block', back, hsplit, hsplit', length_of_renderTexts hfront, hblock,
      hblock'⟩

/-- A schema with objects of three kinds. -/
def gallery : Schema where
  tables := [{ name := .text "picture"
               fields := [{ name := .text "id", type := .text "uuid" }]
               indexes := [{ fields := ["id"] }]
               rlsEnabled := true }]
  storageBuckets := [{ name := .text "scans"
                       policies := [{ action := .select, description := .text "Everyone"
                                      condition := .text "true" }] }]
  customTypes := [{ name := .text "mood", kind := some .enum, values := .list [.text "glad"] }]

/-- Its six statements are complete, also where it is compiled twice. -/
theorem complete_gallery : gallery.size = 6 ∧ ∃ texts,
    (compile [gallery, gallery]).outcome = .ok texts ∧ Complete [gallery, gallery] texts := by
  have hok : ∃ texts, (compile [gallery, gallery]).outcome = .ok texts := by
    rw [outcome_compile]
    exact ⟨_, rfl⟩
  obtain ⟨texts, htexts⟩ := hok
  exact ⟨rfl, texts, htexts, complete_of_compile htexts⟩

end SchemaCompiler
