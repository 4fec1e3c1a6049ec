import SchemaCompiler.Proofs.Sql.ClosedText
import SchemaCompiler.Proofs.Sql.LiteralList
import SchemaCompiler.RowSecurity.Statement

/-!
# What the statements for a policy say

The statements for a policy are put together from its parts, some of which may be missing, and the
parts that are expressions may look like any of the others.  A reader that knows only the format
finds all of them again: each clause is in a line of its own, and starts with its own keyword.

* `Roles`, `Source` — policies whose parts are texts;
* `Source.content` — the parts that such a policy has by its action and its options;
* `readPolicy` — the reader;
* `readPolicy_createPolicy` — **the statements for a policy carry exactly the policy**.
-/

namespace SchemaCompiler.RowSecurity

open Text (Reader Begins written joinWith)

/-! ### Policies whose parts are texts -/

/-- The roles of a policy: none, a single one, or a list. -/
inductive Roles where
  | unset
  | one (role : String)
  | several (roles : List String)

namespace Roles

/-- Roles as an option of a policy. -/
def toValue : Roles → Value
  | .unset => .null
  | .one role => .text role
  | .several roles => .list (roles.map .text)

/-- All roles that are given. -/
def given : Roles → List String
  | .unset => []
  | .one role => [role]
  | .several roles => roles

/-- What a policy is restricted to, if it is: the given roles in order, none of which is `all`. -/
def restriction? (roles : Roles) : Option String :=
  if roles.given = [] ∨ "all" ∈ roles.given then none else some (joinWith ", " roles.given)

end Roles

/-- The parts of a policy and the name of its table. -/
structure Source where
  table : String
  name : Option String := none
  action : PolicyAction
  condition : String
  withCheck : Option String := none
  roles : Roles := .unset
  description : String

/-- What the statements for a policy say. -/
structure Content where
  name : String
  table : String
  action : PolicyAction
  roles : Option String
  visible : Option String
  check : Option String
  description : String
  deriving DecidableEq, Repr

/-- A text as an option. -/
def optionText : Option String → Value
  | none => .null
  | some s => .text s

namespace Source

/-- The policy with these parts. -/
def policy (s : Source) : Policy where
  action := s.action
  description := .text s.description
  condition := .text s.condition
  options :=
    { name := optionText s.name
      roles := s.roles.toValue
      withCheck := optionText s.withCheck }

/-- The condition for visible rows: only new rows have none. -/
def visible? (s : Source) : Option String :=
  match s.action with
  | .insert => none
  | .select | .update | .delete | .all => some s.condition

/-- The condition for rows as they are written.  An update has one of its own, if it is given. -/
def check? (s : Source) : Option String :=
  match s.action with
  | .insert | .all => some s.condition
  | .update => s.withCheck.filter (· ≠ "")
  | .select | .delete => none

/-- What the statements for a policy have to say if it is known by a name. -/
def content (s : Source) (name : String) : Content where
  name := name
  table := s.table
  action := s.action
  roles := s.roles.restriction?
  visible := s.visible?
  check := s.check?
  description := s.description

/-- Parts that can be told from the format: names in one word, conditions and roles in one line. -/
structure Legible (s : Source) : Prop where
  table : ' ' ∉ s.table.toList ∧ '\n' ∉ s.table.toList
  name : ∀ n ∈ s.name, ' ' ∉ n.toList
  condition : '\n' ∉ s.condition.toList
  withCheck : ∀ c ∈ s.withCheck, '\n' ∉ c.toList
  roles : ∀ r ∈ s.roles.given, '\n' ∉ r.toList

end Source

/-! ### The reader -/

/-- Takes a condition: what stands in its line before the parenthesis that closes it.  Where the
statement ends there, the semicolon is left. -/
def readCondition : Reader String := fun text => do
  let (line, rest) ← Reader.line text
  match Reader.enclosed ")" line.toList with
  | some (condition, _) => some (condition, rest)
  | none => (Reader.enclosed ");" line.toList).map fun r => (r.1, ';' :: rest)

/-- The words for actions. -/
def actionWords : List (String × PolicyAction) :=
  (Vocabulary.members (α := PolicyAction)).map fun a => (actionKeyword a, a)

theorem mem_actionWords (a : PolicyAction) : (actionKeyword a, a) ∈ actionWords := by
  cases a <;> decide

theorem actionWords_apart :
    ∀ v ∈ actionWords, ∀ w ∈ actionWords, v.1.toList <+: w.1.toList → v = w := by
  decide +kernel

/-- Takes the clauses of a policy: its roles, then its conditions for visible rows and for rows as
they are written. -/
def readClauses (text : List Char) :
    (Option String × Option String × Option String) × List Char :=
  let (roles, text) := Reader.optional (Reader.after "\n  TO " Reader.line) text
  let (visible, text) := Reader.optional (Reader.after "\n  USING (" readCondition) text
  let (check, text) := Reader.optional (Reader.after "\n  WITH CHECK (" readCondition) text
  ((roles, visible, check), text)

/-- What the statements for a policy say. -/
def readPolicy (text : List Char) : Option Content := do
  let (name, text) ← Reader.after "CREATE POLICY " (Reader.upTo ' ') text
  let (table, text) ← Reader.after " ON " Reader.line text
  let (action, text) ← Reader.after "\n  FOR " (Reader.oneOf actionWords) text
  let ((roles, visible, check), text) := readClauses text
  let (description, text) ←
    Reader.after (";\nCOMMENT ON POLICY " ++ name ++ " ON " ++ table ++ " IS ") Sql.readLiteral text
  if text = [';'] then some { name, table, action, roles, visible, check, description } else none

/-- What may follow a condition. -/
def conditionEnds : List String := ["\n  WITH CHECK (", ";\nCOMMENT ON POLICY "]

/-- A condition is read back, at the end of a line and at the end of the statement. -/
theorem readCondition_append {c : String} (hc : '\n' ∉ c.toList) {rest : List Char}
    (hrest : Begins conditionEnds rest) :
    readCondition ((c ++ ")").toList ++ rest) = some (c, rest) := by
  have hline {closing : String} (hclosing : '\n' ∉ closing.toList) {more : List Char}
      (hmore : ∀ d, more.head? = some d → d = '\n') :
      Reader.line ((c ++ closing).toList ++ more) = some (c ++ closing, more) :=
    Text.upTo_append (Text.notMem_append hc hclosing) hmore
  have hopen {more : List Char} (hmore : ∀ d, more.head? = some d → d = '\n') :
      readCondition ((c ++ ")").toList ++ more) = some (c, more) := by
    rw [readCondition, hline (by decide) hmore, Option.bind_eq_bind, Option.bind_some]
    dsimp only
    rw [String.toList_append, Text.enclosed_append]
  have hlast {more : List Char} (hmore : ∀ d, more.head? = some d → d = '\n') :
      readCondition ((c ++ ");").toList ++ more) = some (c, ';' :: more) := by
    rw [readCondition, hline (by decide) hmore, Option.bind_eq_bind, Option.bind_some]
    dsimp only
    rw [String.toList_append, Text.enclosed_append,
      Text.enclosed_eq_none (by decide) (by decide), Option.map_some]
  rcases hrest with rfl | ⟨m, hm, more, rfl⟩
  · exact hopen nofun
  · rcases List.mem_pair.1 hm with rfl | rfl
    · exact hopen (Text.head?_mark rfl more)
    · have hfeed : "\nCOMMENT ON POLICY ".toList.head? = some '\n' := rfl
      have hend := hlast (Text.head?_mark hfeed more)
      rw [String.toList_append, List.append_assoc] at hend ⊢
      exact hend

/-! ### The text of the statements -/

theorem roleClause_toValue (roles : Roles) :
    (roleClause roles.toValue).toList = written "\n  TO " id roles.restriction? := by
  have hall (role : String) : isEveryone (.text role) = true ↔ role = "all" := by
    rw [isEveryone, Value.same_text_left, Value.text.injEq, eq_comm]
  cases roles with
  | unset => rfl
  | one role =>
    show (if isEveryone (.text role) = true then "" else "\n  TO " ++ role).toList = _
    simp only [hall, Roles.restriction?, Roles.given]
    split
    next hrole => simp [written, hrole]
    next hrole => simp [written, joinWith, Ne.symm hrole]
  | several roles =>
    have hsome : ((roles.map Value.text).isEmpty || (roles.map Value.text).any isEveryone) = true ↔
        roles = [] ∨ "all" ∈ roles := by
      simp [hall]
    have htexts : (roles.map Value.text).map Value.toText = roles := by
      rw [List.map_map]
      exact List.map_id roles
    simp only [roleClause, Roles.toValue, hsome, htexts, Roles.restriction?, Roles.given]
    split
    next hnone => simp [written, hnone]
    next hsome => simp [written, hsome]

theorem policyClauses_policy (s : Source) :
    (policyClauses s.policy).1.toList = written "\n  USING (" (· ++ ")") s.visible? ∧
      (policyClauses s.policy).2.toList = written "\n  WITH CHECK (" (· ++ ")") s.check? := by
  have hvisible : (conditionClause "USING" (.text s.condition)).toList =
      written "\n  USING (" (· ++ ")") (some s.condition) := by
    simp [conditionClause, written, Value.toText]
  have hcheck (c : String) : (conditionClause "WITH CHECK" (.text c)).toList =
      written "\n  WITH CHECK (" (· ++ ")") (some c) := by
    simp [conditionClause, written, Value.toText]
  unfold policyClauses Source.visible? Source.check?
  cases haction : s.action with
  | insert =>
    simp only [Source.policy, haction]
    exact ⟨rfl, hcheck s.condition⟩
  | select | delete =>
    simp only [Source.policy, haction]
    exact ⟨hvisible, rfl⟩
  | all =>
    simp only [Source.policy, haction]
    exact ⟨hvisible, hcheck s.condition⟩
  | update =>
    simp only [Source.policy, haction]
    refine ⟨hvisible, ?_⟩
    cases hcheck' : s.withCheck with
    | none => rfl
    | some c =>
      rw [Option.filter_some]
      by_cases hc : c = ""
      · simp [hc, optionText, Value.isTrue, written]
      · simp [hc, optionText, Value.isTrue, hcheck]

/-- The words of a description that go into a name have no blanks. -/
theorem blank_notMem_descriptionWords {description : String} {w : List Char}
    (hw : w ∈ descriptionWords description) : ' ' ∉ w := by
  intro hblank
  rcases Sql.mem_wordsFrom hw hblank with h | ⟨-, h⟩
  · exact absurd h List.not_mem_nil
  · exact absurd h (by decide)

/-- A policy that is not named gets a name in one word from its table and its description. -/
theorem derivedName_text {table : String} (htable : ' ' ∉ table.toList) (action : PolicyAction)
    (description : String) :
    ∃ name, derivedName (.text table) action (.text description) = .ok name ∧
      ' ' ∉ name.toList := by
  refine ⟨_, rfl, ?_⟩
  have haction : ' ' ∉ (Vocabulary.label action).toList := by cases action <;> decide
  have hwords : ' ' ∉ (joinWith "_"
      (((descriptionWords description).take 3).map String.ofList)).toList := by
    refine Text.notMem_joinWith (by decide) fun s hs => ?_
    obtain ⟨w, hw, rfl⟩ := List.mem_map.1 hs
    rw [String.toList_ofList]
    exact blank_notMem_descriptionWords (List.mem_of_mem_take hw)
  have hline : ' ' ∉ "_".toList := by decide
  have hfront := Text.notMem_append (Text.notMem_append htable hline) haction
  exact Text.notMem_append (Text.notMem_append hfront hline) hwords

theorem policyName_policy {s : Source} (h : s.Legible) :
    ∃ name, policyName (.text s.table) s.policy = .ok (.text name) ∧ ' ' ∉ name.toList := by
  obtain ⟨derived, hderived, hblank⟩ := derivedName_text h.table.1 s.action s.description
  have hunnamed (hname : (optionText s.name).isTrue = false) :
      policyName (.text s.table) s.policy = .ok (.text derived) := by
    rw [policyName, Source.policy, hname, if_neg Bool.false_ne_true, hderived]
    rfl
  cases hname : s.name with
  | none => exact ⟨derived, hunnamed (by rw [hname]; rfl), hblank⟩
  | some name =>
    by_cases hempty : name = ""
    · exact ⟨derived, hunnamed (by rw [hname, hempty]; rfl), hblank⟩
    · have hgiven : (optionText (some name)).isTrue = true := by
        simp [optionText, Value.isTrue, hempty]
      refine ⟨name, ?_, h.name name hname⟩
      rw [policyName, Source.policy, hname, if_pos hgiven]
      rfl

/-- The statements for a policy, part by part. -/
theorem toList_createNamedPolicy (s : Source) (name : String) :
    (createNamedPolicy (.text s.table) (.text name) s.policy).toList =
      "CREATE POLICY ".toList ++ (name.toList ++ (" ON ".toList ++ (s.table.toList ++
        ("\n  FOR ".toList ++ ((actionKeyword s.action).toList ++
          (written "\n  TO " id s.roles.restriction? ++
            (written "\n  USING (" (· ++ ")") s.visible? ++
              (written "\n  WITH CHECK (" (· ++ ")") s.check? ++
                ((";\nCOMMENT ON POLICY " ++ name ++ " ON " ++ s.table ++ " IS ").toList ++
                  ((Sql.textLiteral s.description).toList ++ [';'])))))))))) := by
  have hroles : (roleClause s.policy.options.roles).toList = _ := roleClause_toValue s.roles
  have hfor (rest : List Char) :
      "\n".toList ++ ("  FOR ".toList ++ rest) = "\n  FOR ".toList ++ rest := rfl
  have hcomment (rest : List Char) : ";\n".toList ++ ("COMMENT ON POLICY ".toList ++ rest) =
      ";\nCOMMENT ON POLICY ".toList ++ rest := rfl
  unfold createNamedPolicy
  simp only [String.toList_append, List.append_assoc]
  rw [hroles, (policyClauses_policy s).1, (policyClauses_policy s).2, hfor, hcomment]
  rfl

theorem Source.Legible.restriction {s : Source} (h : s.Legible) :
    ∀ r, s.roles.restriction? = some r → '\n' ∉ r.toList := by
  intro r hr
  unfold Roles.restriction? at hr
  split at hr
  · cases hr
  · rw [← Option.some.inj hr]
    exact Text.notMem_joinWith (by decide) h.roles

theorem Source.Legible.visible {s : Source} (h : s.Legible) :
    ∀ c, s.visible? = some c → '\n' ∉ c.toList := by
  intro c hc
  unfold Source.visible? at hc
  split at hc
  · cases hc
  all_goals exact Option.some.inj hc ▸ h.condition

theorem Source.Legible.check {s : Source} (h : s.Legible) :
    ∀ c, s.check? = some c → '\n' ∉ c.toList := by
  intro c hc
  unfold Source.check? at hc
  split at hc
  case h_3 => exact h.withCheck c (Option.filter_eq_some_iff.1 hc).1
  case h_4 | h_5 => cases hc
  all_goals exact Option.some.inj hc ▸ h.condition

/-- There is a condition for visible rows or one for written rows. -/
theorem Source.begins_clauses (s : Source) (print : String → String) (rest : List Char) :
    Begins ["\n  USING (", "\n  WITH CHECK ("] (written "\n  USING (" print s.visible? ++
      (written "\n  WITH CHECK (" print s.check? ++ rest)) := by
  have hclause : s.visible?.isSome ∨ s.check?.isSome := by
    unfold Source.visible? Source.check?
    cases s.action <;> simp
  cases hvisible : s.visible? with
  | some c => exact .of_start List.mem_cons_self (Text.prefix_written _ c _)
  | none =>
    rw [hvisible] at hclause
    obtain ⟨c, hc⟩ := Option.isSome_iff_exists.1 (hclause.resolve_left Bool.false_ne_true)
    rw [hc]
    exact .of_start (List.mem_cons_of_mem _ List.mem_cons_self) (Text.prefix_written _ c _)

/-- **The clauses of a policy are read back**, before its comment. -/
theorem readClauses_written {s : Source} (h : s.Legible) {rest : List Char}
    (hrest : ";\nCOMMENT ON POLICY ".toList <+: rest) :
    readClauses (written "\n  TO " id s.roles.restriction? ++
      (written "\n  USING (" (· ++ ")") s.visible? ++
        (written "\n  WITH CHECK (" (· ++ ")") s.check? ++ rest))) =
      ((s.roles.restriction?, s.visible?, s.check?), rest) := by
  have hcomment : Begins [";\nCOMMENT ON POLICY "] rest := .of_start List.mem_cons_self hrest
  have hcheck : Begins conditionEnds (written "\n  WITH CHECK (" (· ++ ")") s.check? ++ rest) :=
    hcomment.written _ _
  have hclauses := s.begins_clauses (· ++ ")") rest
  rw [readClauses, Text.optional_written ?roles hclauses (by decide)]
  case roles =>
    intro r hr
    exact Text.upTo_append (h.restriction r hr) (hclauses.head? (by decide))
  dsimp only
  rw [Text.optional_written ?visible hcheck (by decide)]
  case visible =>
    intro c hc
    exact readCondition_append (h.visible c hc) hcheck
  dsimp only
  rw [Text.optional_written ?check hcomment (by decide)]
  case check =>
    intro c hc
    exact readCondition_append (h.check c hc) (.of_start (by decide) hrest)

/-- **The statements for a policy are read back** to its parts. -/
theorem readPolicy_createNamedPolicy {s : Source} (h : s.Legible) {name : String}
    (hname : ' ' ∉ name.toList) :
    readPolicy (createNamedPolicy (.text s.table) (.text name) s.policy).toList =
      some (s.content name) := by
  have hkeyword (rest : List Char) :
      Reader.oneOf actionWords ((actionKeyword s.action).toList ++ rest) = some (s.action, rest) :=
    Text.oneOf_append actionWords_apart (mem_actionWords s.action) rest
  have hon (rest : List Char) : Reader.upTo ' ' (name.toList ++ (" ON ".toList ++ rest)) =
      some (name, " ON ".toList ++ rest) := Text.upTo_append hname (Text.head?_mark rfl rest)
  have hfor (rest : List Char) : Reader.line (s.table.toList ++ ("\n  FOR ".toList ++ rest)) =
      some (s.table, "\n  FOR ".toList ++ rest) :=
    Text.upTo_append h.table.2 (Text.head?_mark rfl rest)
  have hend : [';'].head? ≠ some '\'' := by decide
  let comment := (";\nCOMMENT ON POLICY " ++ name ++ " ON " ++ s.table ++ " IS ").toList ++
    ((Sql.textLiteral s.description).toList ++ [';'])
  have hcomment : ";\nCOMMENT ON POLICY ".toList <+: comment := by
    simp only [comment, String.toList_append, List.append_assoc]
    exact List.prefix_append _ _
  rw [toList_createNamedPolicy]
  simp only [readPolicy, Text.after_append, hon, hfor, hkeyword, readClauses_written h hcomment,
    comment, Sql.readLiteral_textLiteral _ hend, Option.bind_eq_bind, Option.bind_some]
  exact if_pos trivial

/-- **The statements for a policy carry exactly the policy.**  Take a policy of texts, with a table
and a name in one word and conditions and roles in one line.  Its statements are made, and are read
back to its name, its table, its action and its description, with these clauses:

* roles if some are given and none of them is `all`: all of them, in order;
* a condition for visible rows if the action is not to insert;
* a condition for rows as they are written if the action is to insert or all of them, and for an
  update if it has one of its own.

So another such policy with the same statements has all of this in common with it. -/
theorem readPolicy_createPolicy {s : Source} (h : s.Legible) :
    ∃ name text, policyName (.text s.table) s.policy = .ok (.text name) ∧
      createPolicy (.text s.table) s.policy = .ok text ∧
      readPolicy text.toList = some (s.content name) ∧
      ∀ t : Source, t.Legible → createPolicy (.text t.table) t.policy = .ok text →
        ∃ other, policyName (.text t.table) t.policy = .ok (.text other) ∧
          t.content other = s.content name := by
  have hread {t : Source} (ht : t.Legible) : ∃ other text,
      policyName (.text t.table) t.policy = .ok (.text other) ∧
        createPolicy (.text t.table) t.policy = .ok text ∧
          readPolicy text.toList = some (t.content other) := by
    obtain ⟨other, hother, hword⟩ := policyName_policy ht
    refine ⟨other, _, hother, ?_, readPolicy_createNamedPolicy ht hword⟩
    rw [createPolicy, hother, ok_bind]
    rfl
  obtain ⟨name, text, hname, htext, hcontent⟩ := hread h
  refine ⟨name, text, hname, htext, hcontent, fun t ht hsame => ?_⟩
  obtain ⟨other, text', hother, htext', hcontent'⟩ := hread ht
  rw [hsame, Except.ok.injEq] at htext'
  rw [← htext', hcontent, Option.some.injEq] at hcontent'
  exact ⟨other, hother, hcontent'.symm⟩

/-- A policy whose texts look like clauses. -/
def nestedSource : Source where
  table := "notes"
  name := some "staff"
  action := .update
  condition := "owner) WITH CHECK (true"
  withCheck := some "true);"
  roles := .several ["staff", "editor"]
  description := "It's theirs\n  TO all"

/-- All its parts are told apart. -/
theorem readPolicy_nestedSource : nestedSource.Legible ∧
    ∃ text, createPolicy (.text "notes") nestedSource.policy = .ok text ∧
      readPolicy text.toList = some {
        name := "staff"
        table := "notes"
        action := .update
        roles := some "staff, editor"
        visible := some "owner) WITH CHECK (true"
        check := some "true);"
        description := "It's theirs\n  TO all" } := by
  have h : nestedSource.Legible := ⟨by decide, by decide, by decide, by decide, by decide⟩
  obtain ⟨name, text, hname, htext, hread, -⟩ := readPolicy_createPolicy h
  have hstaff : policyName (.text "notes") nestedSource.policy = .ok (.text "staff") := rfl
  obtain rfl : "staff" = name := Value.text.inj (Except.ok.inj (hstaff.symm.trans hname))
  exact ⟨h, text, htext, hread⟩

end SchemaCompiler.RowSecurity
