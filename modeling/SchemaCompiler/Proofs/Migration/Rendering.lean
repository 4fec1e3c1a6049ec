import SchemaCompiler.Migration.Statement
import SchemaCompiler.Proofs.Outcome

/-!
# Blocks and their texts

Empty texts are left out of a migration.  Here there are none: every block of a schema has a text,
and so schemas compile to the texts of all their blocks, one after the other.

* `Statement.HasContent` — a block that has something to say: one for policies, indexes or triggers
  belongs to a table that has some;
* `render_ne_empty` — **the text of such a block is not empty**; all blocks of a schema are such;
* `renderTexts` — the texts of blocks, without a log;
* `outcome_compile` — **what schemas compile to**, with nothing left out;
* `compile_append` — schemas are compiled apart from each other.
-/

namespace SchemaCompiler

open Text (joinWith)

/-! ### No text is empty -/

theorem append_ne_empty {s : String} (h : s ≠ "") (t : String) : s ++ t ≠ "" :=
  fun heq => h (String.append_eq_empty_iff.1 heq).1

/-- Texts that are joined are not empty, if the first of them is not. -/
theorem joinWith_ne_empty {separator s : String} {rest : List String} (h : s ≠ "") :
    joinWith separator (s :: rest) ≠ "" := by
  cases rest with
  | nil => exact h
  | cons t rest => exact append_ne_empty (append_ne_empty h _) _

theorem joinWith_map_ne_empty {α : Type} {separator : String} {f : α → String} {items : List α}
    (h : ∀ x, f x ≠ "") (hitems : items ≠ []) : joinWith separator (items.map f) ≠ "" := by
  cases items with
  | nil => exact absurd rfl hitems
  | cons x items => exact joinWith_ne_empty (h x)

namespace Sql

theorem createTable_ne_empty {t : Table} {text : String}
    (h : (createTable t).outcome = .ok text) : text ≠ "" := by
  simp only [createTable, Traced.outcome_bind, Traced.outcome_lift, Traced.outcome_note,
    Traced.outcome_pure] at h
  obtain ⟨body, -, h⟩ := bind_eq_ok.1 h
  rw [ok_bind, Except.ok.injEq] at h
  rw [← h]
  exact joinWith_ne_empty (by simp [String.append_eq_empty_iff])

theorem createIndex_ne_empty (table : Value) (i : Index) : createIndex table i ≠ "" := by
  unfold createIndex
  exact joinWith_ne_empty (by simp [String.append_eq_empty_iff])

theorem createTrigger_ne_empty (table : Value) (g : Trigger) : createTrigger table g ≠ "" := by
  unfold createTrigger createTriggerFunction
  simp [String.append_eq_empty_iff]

theorem createFunction_ne_empty {f : Function} {text : String}
    (h : createFunction f = .ok text) : text ≠ "" := by
  obtain ⟨args, -, h⟩ := bind_eq_ok.1 h
  obtain ⟨returnType, -, h⟩ := bind_eq_ok.1 h
  rw [← Except.ok.inj h]
  simp [String.append_eq_empty_iff]

theorem createView_ne_empty {v : View} {text : String} (h : createView v = .ok text) :
    text ≠ "" := by
  obtain ⟨query, -, h⟩ := bind_eq_ok.1 h
  rw [← Except.ok.inj h]
  exact joinWith_ne_empty (by simp [String.append_eq_empty_iff])

theorem createType_ne_empty {t : CustomType} {text : String} (h : createType t = .ok text) :
    text ≠ "" := by
  unfold createType at h
  split at h
  next =>
    obtain ⟨values, -, h⟩ := bind_eq_ok.1 h
    rw [← Except.ok.inj h]
    simp [String.append_eq_empty_iff]
  next =>
    obtain ⟨fields, -, h⟩ := bind_eq_ok.1 h
    obtain ⟨columns, -, h⟩ := bind_eq_ok.1 h
    rw [← Except.ok.inj h]
    simp [String.append_eq_empty_iff]
  next =>
    obtain ⟨base, -, h⟩ := bind_eq_ok.1 h
    rw [← Except.ok.inj h]
    simp [String.append_eq_empty_iff]

theorem upsertBucket_ne_empty {b : StorageBucket} {text : String}
    (h : (upsertBucket b).outcome = .ok text) : text ≠ "" := by
  simp only [upsertBucket, Traced.outcome_bind, Traced.outcome_lift, Traced.outcome_pure] at h
  obtain ⟨limit, -, h⟩ := bind_eq_ok.1 h
  obtain ⟨types, -, h⟩ := bind_eq_ok.1 h
  rw [← Except.ok.inj h]
  simp [String.append_eq_empty_iff]

end Sql

namespace RowSecurity

theorem createNamedPolicy_ne_empty (table name : Value) (p : Policy) :
    createNamedPolicy table name p ≠ "" := by
  unfold createNamedPolicy
  simp [String.append_eq_empty_iff]

theorem createStoragePolicy_ne_empty (bucket : Value) (p : Policy) :
    createStoragePolicy bucket p ≠ "" := by
  unfold createStoragePolicy
  simp [String.append_eq_empty_iff]

theorem createPolicies_ne_empty {t : Table} {text : String} (hpolicies : t.policies ≠ [])
    (h : createPolicies t = .ok text) : text ≠ "" := by
  obtain ⟨texts, htexts, h⟩ := bind_eq_ok.1 h
  rw [← Except.ok.inj h]
  cases hp : t.policies with
  | nil => exact absurd hp hpolicies
  | cons p policies =>
    rw [hp, mapM_eq_ok] at htexts
    cases htexts with
    | cons hfirst _ =>
      obtain ⟨name, -, hfirst⟩ := bind_eq_ok.1 hfirst
      rw [← Except.ok.inj hfirst]
      exact joinWith_ne_empty (createNamedPolicy_ne_empty t.name name p)

end RowSecurity

namespace Statement

/-- A block that has something to say. -/
def HasContent : Statement → Prop
  | .policies t => t.policies ≠ []
  | .indexes t => t.indexes ≠ []
  | .triggers t => t.triggers ≠ []
  | _ => True

theorem outcome_renderPolicies (t : Table) :
    (renderPolicies t).outcome = RowSecurity.createPolicies t := by
  unfold renderPolicies
  cases t.rlsEnabled <;> rfl

/-- **The text of a block is not empty.** -/
theorem render_ne_empty {b : Statement} (hb : b.HasContent) {text : String}
    (h : b.render.outcome = .ok text) : text ≠ "" := by
  cases b with
  | customType t => exact Sql.createType_ne_empty h
  | table t => exact Sql.createTable_ne_empty h
  | rowSecurity t =>
    rw [← Except.ok.inj h]
    simp [Sql.enableRowSecurity, String.append_eq_empty_iff]
  | policies t =>
    exact RowSecurity.createPolicies_ne_empty hb ((outcome_renderPolicies t).symm.trans h)
  | indexes t =>
    rw [← Except.ok.inj h]
    exact joinWith_map_ne_empty (Sql.createIndex_ne_empty t.name) hb
  | triggers t =>
    rw [← Except.ok.inj h]
    exact joinWith_map_ne_empty (Sql.createTrigger_ne_empty t.name) hb
  | function f => exact Sql.createFunction_ne_empty h
  | view v => exact Sql.createView_ne_empty h
  | bucket b => exact Sql.upsertBucket_ne_empty h
  | bucketPolicy b p =>
    rw [← Except.ok.inj h]
    exact RowSecurity.createStoragePolicy_ne_empty b.name p

end Statement

theorem Table.hasContent_statements (t : Table) : ∀ b ∈ t.statements, b.HasContent := by
  intro b hb
  simp only [Table.statements, List.mem_cons, List.mem_append] at hb
  rcases hb with rfl | ((hb | hb) | hb) | hb
  · exact trivial
  · split at hb
    · rw [List.mem_singleton.1 hb]
      exact trivial
    · exact absurd hb List.not_mem_nil
  all_goals
    split at hb
    next => exact absurd hb List.not_mem_nil
    next hne =>
      rw [List.mem_singleton.1 hb]
      exact fun hnil => hne (List.isEmpty_iff.2 hnil)

theorem Schema.hasContent_statements (s : Schema) : ∀ b ∈ s.statements, b.HasContent := by
  intro b hb
  simp only [Schema.statements, StorageBucket.statements, List.mem_append, List.mem_map,
    List.mem_flatMap, List.mem_cons] at hb
  rcases hb with (((⟨t, -, rfl⟩ | ⟨t, -, hb⟩) | ⟨f, -, rfl⟩) | ⟨v, -, rfl⟩) |
    ⟨u, -, rfl | ⟨p, -, rfl⟩⟩
  · exact trivial
  · exact Table.hasContent_statements t b hb
  all_goals exact trivial

/-! ### What schemas compile to -/

/-- The texts of blocks. -/
def renderTexts (blocks : List Statement) : Except Fault (List String) :=
  blocks.mapM fun b => b.render.outcome

theorem renderTexts_append (bs cs : List Statement) : renderTexts (bs ++ cs) = do
    return (← renderTexts bs) ++ (← renderTexts cs) := List.mapM_append

theorem renderTexts_flatMap {α : Type} (blocks : α → List Statement) (items : List α) :
    renderTexts (items.flatMap blocks) =
      (items.mapM fun x => renderTexts (blocks x)).map List.flatten := by
  induction items with
  | nil => rfl
  | cons x items ih =>
    rw [List.flatMap_cons, renderTexts_append, ih, List.mapM_cons]
    cases renderTexts (blocks x) with
    | error fault => rfl
    | ok texts =>
      cases items.mapM fun x => renderTexts (blocks x) with
      | error fault => rfl
      | ok parts => rfl

theorem outcome_compileSchema (s : Schema) :
    (compileSchema s).outcome = renderTexts s.statements := by
  simp only [compileSchema, Statement.renderAll, Traced.outcome_bind, Traced.outcome_each,
    Traced.outcome_note, Traced.outcome_pure, renderTexts, ok_bind]
  exact bind_pure _

theorem ne_empty_of_renderTexts {s : Schema} {texts : List String}
    (h : renderTexts s.statements = .ok texts) : ∀ text ∈ texts, text ≠ "" := by
  intro text htext
  obtain ⟨b, hb, hrender⟩ := exists_item_of_mem h htext
  exact Statement.render_ne_empty (Schema.hasContent_statements s b hb) hrender

/-- **Schemas compile to the texts of all their blocks**: nothing is left out. -/
theorem outcome_compile (schemas : List Schema) :
    (compile schemas).outcome = renderTexts (schemas.flatMap Schema.statements) := by
  rw [renderTexts_flatMap]
  simp only [compile, Traced.outcome_bind, Traced.outcome_each, Traced.outcome_pure,
    outcome_compileSchema]
  cases hparts : schemas.mapM fun s => renderTexts s.statements with
  | error fault => rfl
  | ok parts =>
    -- Empty texts are filtered out, but there are none.
    have hall : ∀ text ∈ parts.flatten, decide (text ≠ "") = true := by
      intro text htext
      obtain ⟨part, hpart, htext⟩ := List.mem_flatten.1 htext
      obtain ⟨s, -, hs⟩ := exists_item_of_mem hparts hpart
      exact decide_eq_true (ne_empty_of_renderTexts hs text htext)
    show Except.ok (parts.flatten.filter (· ≠ "")) = .ok parts.flatten
    rw [List.filter_eq_self.2 hall]

/-- **Schemas are compiled apart from each other**: what two lists of them compile to, one after the
other, is what both together compile to. -/
theorem compile_append (xs ys : List Schema) : (compile (xs ++ ys)).outcome = do
    return (← (compile xs).outcome) ++ (← (compile ys).outcome) := by
  simp only [outcome_compile, List.flatMap_append, renderTexts_append]

end SchemaCompiler
