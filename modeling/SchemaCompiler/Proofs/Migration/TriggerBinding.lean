import SchemaCompiler.Migration.Statement
import SchemaCompiler.Proofs.RowSecurity.Database

/-!
# Triggers and the functions they call

The function behind a trigger is created under a name made of the table's and the trigger's, and
replaces any function of that name.  What a trigger calls is therefore known only after all
statements of a schema have been run.

* `Definition`, `Catalog` — what statements say about functions and triggers, and a database that
  remembers the last of it;
* `Schema.definitions` — the definitions of a schema, in the order of its statements, which are
  written in the texts that it compiles to (`compileSchema_isWritten`);
* `functions_run`, `triggers_run` — the last definition of a name counts;
* `called_iff` — **when every trigger calls a function with its own body**;
* `called_other` — a schema where one does not: `user` with the trigger `log_touch` and `user_log`
  with the trigger `touch` share a function.
-/

namespace SchemaCompiler

open Sql

/-! ### Definitions -/

/-- What a statement says about functions and triggers. -/
inductive Definition where
  | function (name body : String)
  | trigger (table name function : String)

/-- The body of the function behind a trigger. -/
def triggerBody (g : Trigger) : String := "BEGIN\n  " ++ g.body.toText ++ "\n  RETURN NEW;\nEND;"

/-- The definitions for a trigger of a table. -/
def triggerDefinitions (table : Value) (g : Trigger) : List Definition :=
  [.function (triggerFunctionName table g) (triggerBody g),
    .trigger table.toText g.name.toText (triggerFunctionName table g)]

/-- The definition for a function. -/
def functionDefinition (f : Function) : Definition := .function f.name.toText (functionBody f)

/-- The definitions of a block. -/
def Statement.definitions : Statement → List Definition
  | .triggers t => t.triggers.flatMap (triggerDefinitions t.name)
  | .function f => [functionDefinition f]
  | _ => []

/-- The definitions of a schema, in the order of its statements. -/
def Schema.definitions (s : Schema) : List Definition := s.statements.flatMap Statement.definitions

/-- The statement that a definition is taken from. -/
inductive Definition.IsWrittenBy : Definition → String → Prop
  | function (name signature body language : String) :
    IsWrittenBy (.function name body) ("CREATE OR REPLACE FUNCTION " ++ name ++ "(" ++ signature ++
      " AS $$\n" ++ body ++ "\n$$ LANGUAGE " ++ language ++ ";")
  | trigger (table name function occasion extent : String) :
    IsWrittenBy (.trigger table name function) ("CREATE TRIGGER " ++ name ++ "\n  " ++ occasion ++
      " ON " ++ table ++ "\n  FOR EACH " ++ extent ++ "\n  EXECUTE FUNCTION " ++ function ++ "();")

theorem createTriggerFunction_isWritten (table : Value) (g : Trigger) :
    Definition.IsWrittenBy (.function (triggerFunctionName table g) (triggerBody g))
      (createTriggerFunction table g) := by
  have htext : createTriggerFunction table g = "CREATE OR REPLACE FUNCTION " ++
      triggerFunctionName table g ++ "(" ++ ")\nRETURNS TRIGGER" ++ " AS $$\n" ++ triggerBody g ++
      "\n$$ LANGUAGE " ++ "plpgsql" ++ ";" := by
    refine String.toList_inj.1 ?_
    unfold createTriggerFunction triggerBody
    generalize triggerFunctionName table g = name
    generalize g.body.toText = body
    simp
  rw [htext]
  exact .function (triggerFunctionName table g) ")\nRETURNS TRIGGER" (triggerBody g) "plpgsql"

theorem attachTrigger_isWritten (table : Value) (g : Trigger) :
    Definition.IsWrittenBy (.trigger table.toText g.name.toText (triggerFunctionName table g))
      (attachTrigger table g) := by
  have htext : ∃ occasion extent, attachTrigger table g = "CREATE TRIGGER " ++ g.name.toText ++
      "\n  " ++ occasion ++ " ON " ++ table.toText ++ "\n  FOR EACH " ++ extent ++
      "\n  EXECUTE FUNCTION " ++ triggerFunctionName table g ++ "();" := by
    refine ⟨spacedKeyword g.options.timing ++ " " ++
      Text.joinWith " OR " (g.events.map fun e => Text.upper e.toText),
      Vocabulary.keyword g.options.scope ++ (if g.options.condition.isTrue
        then " WHEN (" ++ g.options.condition.toText ++ ")" else ""), String.toList_inj.1 ?_⟩
    unfold attachTrigger
    dsimp only
    generalize triggerFunctionName table g = name
    generalize spacedKeyword g.options.timing = timing
    generalize Text.joinWith " OR " (g.events.map fun e => Text.upper e.toText) = events
    generalize Vocabulary.keyword g.options.scope = scope
    generalize (if g.options.condition.isTrue
      then " WHEN (" ++ g.options.condition.toText ++ ")" else "") = condition
    simp
  obtain ⟨occasion, extent, htext⟩ := htext
  rw [htext]
  exact .trigger table.toText g.name.toText (triggerFunctionName table g) occasion extent

/-- The texts of the statements for triggers of a table. -/
def triggerTexts (table : Value) (triggers : List Trigger) : List String :=
  triggers.flatMap fun g => [createTriggerFunction table g, attachTrigger table g]

theorem triggerDefinitions_areWritten (table : Value) (triggers : List Trigger) :
    List.Forall₂ Definition.IsWrittenBy (triggers.flatMap (triggerDefinitions table))
      (triggerTexts table triggers) := by
  induction triggers with
  | nil => exact .nil
  | cons g triggers ih =>
    rw [triggerTexts, List.flatMap_cons, List.flatMap_cons]
    exact .cons (createTriggerFunction_isWritten table g)
      (.cons (attachTrigger_isWritten table g) ih)

theorem joinWith_pairs {α : Type} (separator : String) (first second : α → String)
    (items : List α) :
    Text.joinWith separator (items.map fun x => first x ++ separator ++ second x) =
      Text.joinWith separator (items.flatMap fun x => [first x, second x]) := by
  induction items with
  | nil => rfl
  | cons x items ih =>
    cases items with
    | nil => rfl
    | cons y items =>
      have hleft : Text.joinWith separator
          ((x :: y :: items).map fun x => first x ++ separator ++ second x) =
          first x ++ separator ++ second x ++ separator ++ Text.joinWith separator
            ((y :: items).map fun x => first x ++ separator ++ second x) := rfl
      have hright : Text.joinWith separator
          ((x :: y :: items).flatMap fun x => [first x, second x]) =
          first x ++ separator ++ (second x ++ separator ++ Text.joinWith separator
            ((y :: items).flatMap fun x => [first x, second x])) := rfl
      rw [hleft, hright, ih]
      simp only [String.append_assoc]

/-- **The definitions of a block of triggers are what its text writes**, in this order. -/
theorem createTriggers_isWritten (t : Table) :
    List.Forall₂ Definition.IsWrittenBy (Statement.triggers t).definitions
        (triggerTexts t.name t.triggers) ∧
      createTriggers t = Text.joinWith "\n\n" (triggerTexts t.name t.triggers) :=
  ⟨triggerDefinitions_areWritten t.name t.triggers,
    joinWith_pairs "\n\n" (createTriggerFunction t.name) (attachTrigger t.name) t.triggers⟩

/-- The parts of the statement for a function, put together in another way. -/
theorem functionText_eq (name args type volatility security body language : String) :
    "CREATE OR REPLACE FUNCTION " ++ name ++ "(" ++ args ++ ")\n" ++ "RETURNS " ++ type ++
        volatility ++ security ++ " AS $$\n" ++ body ++ "\n$$ LANGUAGE " ++ language ++ ";" =
      "CREATE OR REPLACE FUNCTION " ++ name ++ "(" ++
        (args ++ ")\n" ++ "RETURNS " ++ type ++ volatility ++ security) ++ " AS $$\n" ++ body ++
        "\n$$ LANGUAGE " ++ language ++ ";" := by
  refine String.toList_inj.1 ?_
  simp only [String.toList_append, List.append_assoc]

theorem createFunction_isWritten {f : Function} {text : String} (h : createFunction f = .ok text) :
    Definition.IsWrittenBy (functionDefinition f) text := by
  obtain ⟨args, -, h⟩ := bind_eq_ok.1 h
  obtain ⟨returnType, -, h⟩ := bind_eq_ok.1 h
  rw [pure_eq_ok, Except.ok.injEq] at h
  rw [← h, functionText_eq]
  exact .function f.name.toText _ (functionBody f) f.options.language.toText

/-- A block with definitions is the text of the statements that make them, one after the other. -/
def Statement.IsWritten (b : Statement) (text : String) : Prop :=
  b.definitions = [] ∨ ∃ parts, text = Text.joinWith "\n\n" parts ∧
    List.Forall₂ Definition.IsWrittenBy b.definitions parts

theorem render_isWritten {b : Statement} {text : String} (h : b.render.outcome = .ok text) :
    b.IsWritten text := by
  cases b with
  | triggers t =>
    obtain ⟨hparts, htext⟩ := createTriggers_isWritten t
    exact .inr ⟨_, (Except.ok.inj h).symm.trans htext, hparts⟩
  | function f => exact .inr ⟨[text], rfl, .cons (createFunction_isWritten h) .nil⟩
  | _ => exact .inl rfl

/-- **A schema compiles to the statements that make its definitions**, in this order. -/
theorem compileSchema_isWritten {s : Schema} {texts : List String}
    (h : (compileSchema s).outcome = .ok texts) :
    List.Forall₂ Statement.IsWritten s.statements texts := by
  unfold compileSchema at h
  simp only [Statement.renderAll, Traced.outcome_bind, Traced.outcome_each, Traced.outcome_note,
    Traced.outcome_pure] at h
  obtain ⟨blocks, hblocks, h⟩ := bind_eq_ok.1 h
  rw [ok_bind, Except.ok.injEq] at h
  rw [← h]
  exact (mapM_eq_ok.1 hblocks).imp fun _ _ => render_isWritten

/-! ### The last definition counts -/

/-- The body that a definition gives to a function. -/
def Definition.body (name : String) : Definition → Option String
  | .function n text => if n = name then some text else none
  | .trigger _ _ _ => none

/-- The function that a definition lets a trigger of a table call. -/
def Definition.callee (key : String × String) : Definition → Option String
  | .function _ _ => none
  | .trigger table name called => if (table, name) = key then some called else none

/-- The functions of a database by name, each with its body, and for the triggers of its tables the
functions that they call. -/
structure Catalog where
  functions : String → Option String
  triggers : String × String → Option String

namespace Catalog

/-- A database without functions and triggers. -/
def empty : Catalog := ⟨fun _ => none, fun _ => none⟩

/-- A definition made: it takes the place of any earlier one. -/
def define (c : Catalog) : Definition → Catalog
  | .function name body =>
    { c with functions := fun n => if n = name then some body else c.functions n }
  | .trigger table name function =>
    { c with triggers := fun key => if key = (table, name) then some function else c.triggers key }

/-- Definitions made in order. -/
def run (c : Catalog) (definitions : List Definition) : Catalog := definitions.foldl define c

/-- The body of the function that a trigger of a table calls. -/
def called (c : Catalog) (table : Value) (g : Trigger) : Option String :=
  (c.triggers (table.toText, g.name.toText)).bind c.functions

theorem functions_define (c : Catalog) (d : Definition) (name : String) :
    (c.define d).functions name = (d.body name).or (c.functions name) := by
  cases d with
  | trigger table trigger function => rfl
  | function n body =>
    by_cases hn : n = name
    · subst hn
      simp [define, Definition.body]
    · simp [define, Definition.body, hn, Ne.symm hn]

theorem triggers_define (c : Catalog) (d : Definition) (key : String × String) :
    (c.define d).triggers key = (d.callee key).or (c.triggers key) := by
  cases d with
  | function n body => rfl
  | trigger table trigger function =>
    by_cases hkey : (table, trigger) = key
    · subst hkey
      simp [define, Definition.callee]
    · simp [define, Definition.callee, hkey, Ne.symm hkey]

/-- What is read after a run is the last that a definition said about it. -/
theorem read_run {α : Type} (read : Catalog → Option α) (said : Definition → Option α)
    (hdefine : ∀ c d, read (c.define d) = (said d).or (read c)) (c : Catalog)
    (definitions : List Definition) :
    read (c.run definitions) = (definitions.filterMap said).getLast?.or (read c) := by
  induction definitions generalizing c with
  | nil => rfl
  | cons d definitions ih =>
    rw [run, List.foldl_cons, ← run, ih, hdefine, List.filterMap_cons]
    cases said d with
    | none => rfl
    | some a =>
      rw [List.getLast?_cons, Option.some_or, Option.some_or]
      cases (definitions.filterMap said).getLast? <;> rfl

/-- **A function has the last body that it was given.** -/
theorem functions_run (c : Catalog) (definitions : List Definition) (name : String) :
    (c.run definitions).functions name =
      (definitions.filterMap (Definition.body name)).getLast?.or (c.functions name) :=
  read_run (·.functions name) (Definition.body name) (fun c d => functions_define c d name) c
    definitions

/-- **A trigger calls the function that it was last bound to.** -/
theorem triggers_run (c : Catalog) (definitions : List Definition) (key : String × String) :
    (c.run definitions).triggers key =
      (definitions.filterMap (Definition.callee key)).getLast?.or (c.triggers key) :=
  read_run (·.triggers key) (Definition.callee key) (fun c d => triggers_define c d key) c
    definitions

end Catalog

/-! ### The definitions of a schema -/

/-- A trigger with the name of its table. -/
abbrev Placed := Value × Trigger

namespace Placed

/-- Where a trigger stands: its table and its name. -/
def place (p : Placed) : String × String := (p.1.toText, p.2.name.toText)

/-- The name of the function behind a trigger. -/
def functionName (p : Placed) : String := triggerFunctionName p.1 p.2

/-- The body of the function behind a trigger. -/
def body (p : Placed) : String := triggerBody p.2

theorem functionName_eq (p : Placed) :
    p.functionName = p.place.1 ++ "_" ++ p.place.2 ++ "_trigger_fn" := rfl

end Placed

/-- The triggers of a schema, table by table. -/
def Schema.triggers (s : Schema) : List Placed :=
  s.tables.flatMap fun t => t.triggers.map (Prod.mk t.name)

theorem Table.definitions_eq (t : Table) : t.statements.flatMap Statement.definitions =
    t.triggers.flatMap (triggerDefinitions t.name) := by
  simp only [Table.statements, List.flatMap_cons, List.flatMap_append]
  have htable : (Statement.table t).definitions = [] := rfl
  have hsecurity : (if t.rlsEnabled then [Statement.rowSecurity t] else []).flatMap
      Statement.definitions = [] := by split <;> rfl
  have hpolicies : (if t.policies.isEmpty then [] else [Statement.policies t]).flatMap
      Statement.definitions = [] := by split <;> rfl
  have hindexes : (if t.indexes.isEmpty then [] else [Statement.indexes t]).flatMap
      Statement.definitions = [] := by split <;> rfl
  rw [htable, hsecurity, hpolicies, hindexes]
  cases htriggers : t.triggers with
  | nil => rfl
  | cons g triggers =>
    have hself : (Statement.triggers t).definitions =
        (g :: triggers).flatMap (triggerDefinitions t.name) := by rw [← htriggers]; rfl
    rw [List.isEmpty_cons, if_neg Bool.false_ne_true, List.flatMap_singleton, hself]
    rfl

/-- The definitions of a schema are those for its triggers, and then its functions. -/
theorem Schema.definitions_eq (s : Schema) : s.definitions =
    s.triggers.flatMap (fun p => triggerDefinitions p.1 p.2) ++
      s.functions.map functionDefinition := by
  have htypes : (s.customTypes.map Statement.customType).flatMap Statement.definitions = [] := by
    rw [List.flatMap_map, List.flatMap_eq_nil_iff]
    exact fun _ _ => rfl
  have htables : (s.tables.flatMap Table.statements).flatMap Statement.definitions =
      s.triggers.flatMap fun p => triggerDefinitions p.1 p.2 := by
    rw [List.flatMap_assoc, Schema.triggers, List.flatMap_assoc]
    refine List.flatMap_congr fun t _ => ?_
    rw [Table.definitions_eq, List.flatMap_map]
  have hfunctions : (s.functions.map Statement.function).flatMap Statement.definitions =
      s.functions.map functionDefinition := by
    rw [List.flatMap_map]
    exact List.flatMap_pure_eq_map _ _
  have hviews : (s.views.map Statement.view).flatMap Statement.definitions = [] := by
    rw [List.flatMap_map, List.flatMap_eq_nil_iff]
    exact fun _ _ => rfl
  have hbuckets : (s.storageBuckets.flatMap StorageBucket.statements).flatMap
      Statement.definitions = [] := by
    rw [List.flatMap_assoc, List.flatMap_eq_nil_iff]
    intro b _
    rw [StorageBucket.statements, List.flatMap_cons, List.flatMap_map]
    exact List.flatMap_eq_nil_iff.2 fun _ _ => rfl
  rw [Schema.definitions, Schema.statements, List.flatMap_append, List.flatMap_append,
    List.flatMap_append, List.flatMap_append, htypes, htables, hfunctions, hviews, hbuckets,
    List.nil_append, List.append_nil, List.append_nil]

/-! ### What a trigger calls -/

/-- What the parts of a list say, where only some of its items say anything. -/
theorem filterMap_flatMap_ite {α β γ : Type} {parts : α → List β} {said : β → Option γ}
    {P : α → Prop} [DecidablePred P] {value : α → γ}
    (h : ∀ x, (parts x).filterMap said = if P x then [value x] else []) (items : List α) :
    (items.flatMap parts).filterMap said = (items.filter (P ·)).map value := by
  induction items with
  | nil => rfl
  | cons x items ih =>
    rw [List.flatMap_cons, List.filterMap_append, ih, h, List.filter_cons]
    by_cases hx : P x
    · rw [if_pos hx, if_pos (decide_eq_true hx)]
      rfl
    · rw [if_neg hx, if_neg (by simpa using hx)]
      rfl

/-- Where some item is kept there is a last one. -/
theorem exists_getLast?_filter {α : Type} {P : α → Prop} [DecidablePred P] {items : List α} {x : α}
    (hx : x ∈ items) (h : P x) :
    ∃ y ∈ items, P y ∧ (items.filter (P ·)).getLast? = some y := by
  have hmem : x ∈ items.filter (P ·) := List.mem_filter.2 ⟨hx, decide_eq_true h⟩
  have hlast := List.getLast?_eq_some_getLast (List.ne_nil_of_mem hmem)
  obtain ⟨hy, hP⟩ := List.mem_filter.1 (List.mem_of_getLast? hlast)
  exact ⟨_, hy, of_decide_eq_true hP, hlast⟩

section Called

variable (s : Schema)

/-- The triggers of a schema whose function has a name. -/
def Schema.triggersCalling (name : String) : List Placed :=
  s.triggers.filter (·.functionName = name)

/-- The functions of a schema with a name. -/
def Schema.functionsNamed (name : String) : List Function :=
  s.functions.filter (·.name.toText = name)

theorem body_definitions (name : String) :
    s.definitions.filterMap (Definition.body name) =
      (s.triggersCalling name).map Placed.body ++ (s.functionsNamed name).map functionBody := by
  have htriggers : ∀ p : Placed, (triggerDefinitions p.1 p.2).filterMap (Definition.body name) =
      if p.functionName = name then [p.body] else [] := by
    intro p
    by_cases hname : p.functionName = name
    · have hname' : triggerFunctionName p.1 p.2 = name := hname
      simp [triggerDefinitions, Definition.body, hname, hname', Placed.body]
    · have hname' : triggerFunctionName p.1 p.2 ≠ name := hname
      simp [triggerDefinitions, Definition.body, hname, hname']
  have hfunctions : ∀ f : Function, [functionDefinition f].filterMap (Definition.body name) =
      if f.name.toText = name then [functionBody f] else [] := by
    intro f
    by_cases hname : f.name.toText = name
    · simp [functionDefinition, Definition.body, hname]
    · simp [functionDefinition, Definition.body, hname]
  have hsplit : s.functions.map functionDefinition =
      s.functions.flatMap fun f => [functionDefinition f] :=
    (List.flatMap_pure_eq_map functionDefinition s.functions).symm
  rw [Schema.definitions_eq, List.filterMap_append, filterMap_flatMap_ite htriggers, hsplit,
    filterMap_flatMap_ite hfunctions]
  rfl

theorem callee_definitions (key : String × String) :
    s.definitions.filterMap (Definition.callee key) =
      (s.triggers.filter (·.place = key)).map Placed.functionName := by
  have htriggers : ∀ p : Placed, (triggerDefinitions p.1 p.2).filterMap (Definition.callee key) =
      if p.place = key then [p.functionName] else [] := by
    intro p
    by_cases hplace : p.place = key
    · have hplace' : (p.1.toText, p.2.name.toText) = key := hplace
      simp [triggerDefinitions, List.filterMap_cons, Definition.callee, hplace, hplace',
        Placed.functionName]
    · have hplace' : (p.1.toText, p.2.name.toText) ≠ key := hplace
      simp [triggerDefinitions, Definition.callee, hplace, hplace']
  have hfunctions : (s.functions.map functionDefinition).filterMap
      (Definition.callee key) = [] := by
    rw [List.filterMap_map, List.filterMap_eq_nil_iff]
    exact fun _ _ => rfl
  rw [Schema.definitions_eq, List.filterMap_append, hfunctions, List.append_nil,
    filterMap_flatMap_ite htriggers]

/-- A trigger ends up with the function named for it. -/
theorem triggers_run_definitions (c : Catalog) {p : Placed} (hp : p ∈ s.triggers) :
    (c.run s.definitions).triggers p.place = some p.functionName := by
  rw [Catalog.triggers_run, callee_definitions]
  obtain ⟨q, -, hplace, hq⟩ :=
    exists_getLast?_filter (P := fun q : Placed => q.place = p.place) hp rfl
  have hname : q.functionName = p.functionName := by
    rw [Placed.functionName_eq, Placed.functionName_eq, hplace]
  rw [List.getLast?_map, hq, Option.map_some, Option.some_or, hname]

theorem exists_trigger_calling {p : Placed} (hp : p ∈ s.triggers) :
    ∃ q ∈ s.triggers, q.functionName = p.functionName ∧
      (s.triggersCalling p.functionName).getLast? = some q :=
  exists_getLast?_filter (P := fun q : Placed => q.functionName = p.functionName) hp rfl

/-- The body that a trigger calls: that of the last function of the schema with the name of its
function, and where there is none that of the last trigger whose function has this name. -/
theorem called_run_definitions (c : Catalog) {p : Placed} (hp : p ∈ s.triggers) :
    (c.run s.definitions).called p.1 p.2 =
      ((s.functionsNamed p.functionName).getLast?.map functionBody).or
        ((s.triggersCalling p.functionName).getLast?.map Placed.body) := by
  have hcallee := triggers_run_definitions s c hp
  rw [Placed.place] at hcallee
  rw [Catalog.called, hcallee, Option.bind_some, Catalog.functions_run, body_definitions,
    List.getLast?_append, List.getLast?_map, List.getLast?_map]
  obtain ⟨q, -, -, hq⟩ := exists_trigger_calling s hp
  rw [hq]
  cases (s.functionsNamed p.functionName).getLast? <;> rfl

/-- **When every trigger calls a function with its own body.**  No two triggers with different
bodies may share the name of their function, and a function of the schema with that name must have
the trigger's body. -/
theorem called_iff (c : Catalog) :
    (∀ p ∈ s.triggers, (c.run s.definitions).called p.1 p.2 = some p.body) ↔
      (∀ p ∈ s.triggers, ∀ q ∈ s.triggers, p.functionName = q.functionName → p.body = q.body) ∧
      ∀ p ∈ s.triggers, ∀ f ∈ (s.functionsNamed p.functionName).getLast?,
        functionBody f = p.body := by
  constructor
  · intro hcalled
    constructor
    · intro p hp q hq hname
      have hp' := hcalled p hp
      have hq' := hcalled q hq
      rw [called_run_definitions s c hp, hname, ← called_run_definitions s c hq, hq'] at hp'
      exact (Option.some.inj hp').symm
    · intro p hp f hf
      have hp' := hcalled p hp
      rw [called_run_definitions s c hp, Option.mem_def.1 hf, Option.map_some,
        Option.some_or] at hp'
      exact Option.some.inj hp'
  · rintro ⟨hshared, hfunctions⟩ p hp
    rw [called_run_definitions s c hp]
    cases hf : (s.functionsNamed p.functionName).getLast? with
    | some f =>
      rw [Option.map_some, Option.some_or, hfunctions p hp f hf]
    | none =>
      obtain ⟨q, hqmem, hname, hq⟩ := exists_trigger_calling s hp
      rw [hq, Option.map_none, Option.none_or, Option.map_some, hshared q hqmem p hp hname]

end Called

/-- Users and their log, each with a trigger. -/
def userLog : Schema where
  tables := [
    { name := .text "user"
      fields := [{ name := .text "id", type := .text "uuid" }]
      triggers := [{ name := .text "log_touch", events := [.text "update"],
                     body := .text "NEW.touched = now();" }] },
    { name := .text "user_log"
      fields := [{ name := .text "id", type := .text "uuid" }]
      triggers := [{ name := .text "touch", events := [.text "insert"],
                     body := .text "NEW.logged = now();" }] }]

/-- **A trigger may call the function of another table's trigger**: the names of two tables and of
their triggers are different, and yet make the same name of a function. -/
theorem called_other : userLog.checked = .ok userLog ∧
    (∀ t ∈ userLog.tables, (t.triggers.map (·.name.toText)).Nodup) ∧
    ∃ p ∈ userLog.triggers, ∃ q ∈ userLog.triggers, p.1.toText ≠ q.1.toText ∧ p.body ≠ q.body ∧
      p.functionName = q.functionName ∧
      (Catalog.empty.run userLog.definitions).called p.1 p.2 = some q.body := by
  have htexts : ∀ t ∈ userLog.tables, t.name.IsText := by
    simp only [userLog, List.forall_mem_cons, List.not_mem_nil]
    exact ⟨⟨_, rfl⟩, ⟨_, rfl⟩, nofun⟩
  refine ⟨(RowSecurity.checked_eq_ok_iff htexts).2 (by simp [userLog]), by simp [userLog], ?_⟩
  exact ⟨_, List.mem_cons_self, _, List.mem_cons_of_mem _ List.mem_cons_self, by decide, by decide,
    by decide, by decide⟩

end SchemaCompiler
