import SchemaCompiler.Proofs.Sql.ClosedText
import SchemaCompiler.RowSecurity.Statement
import SchemaCompiler.Schema.Basic
import SchemaCompiler.Sql.Object

/-!
# Generated statements

What a schema has to provide so that its statements are the intended ones — closed texts where SQL
is written out, no double dollars in bodies, and **nothing at all for free text**: comments,
descriptions, labels, content types and plain defaults — and how many statements each object then
comes to.

* `Table.IsClosed`, `Function.IsClosed` and so on — what an object has to provide;
* `ends_createTable`, `ends_createIndex` and so on — where the text for an object ends, and the
  number of its statements.
-/

namespace SchemaCompiler

open Sql

/-! ### What objects provide -/

/-- A field whose texts can be written out. -/
structure Field.IsClosed (f : Field) : Prop where
  name : Closed f.name.toText
  type : Closed f.type.toText
  default : ClosedDefault f.options.default
  references : Closed f.options.references.toText
  generated : Closed f.options.generated.toText

/-- An index whose texts can be written out. -/
structure Index.IsClosed (i : Index) : Prop where
  fields : ∀ f ∈ i.fields, Closed f
  name : Closed i.options.name.toText
  method : Closed i.options.method.toText
  condition : Closed i.options.condition.toText

/-- Roles that can be written out: one, or several in a list. -/
def ClosedRoles : Value → Prop
  | .list roles => ∀ role ∈ roles, Closed role.toText
  | .tuple roles => ∀ role ∈ roles, Closed role.toText
  | role => Closed role.toText

/-- A policy whose texts can be written out; its description is free text. -/
structure Policy.IsClosed (p : Policy) : Prop where
  condition : Closed p.condition.toText
  name : Closed p.options.name.toText
  roles : ClosedRoles p.options.roles
  withCheck : Closed p.options.withCheck.toText

/-- A trigger whose texts can be written out. -/
structure Trigger.IsClosed (t : Trigger) : Prop where
  name : Closed t.name.toText
  events : ∀ e ∈ t.events, Closed e.toText
  body : NoDollars t.body.toText
  condition : Closed t.options.condition.toText

/-- A table whose texts can be written out; its comment is free text. -/
structure Table.IsClosed (t : Table) : Prop where
  name : Closed t.name.toText
  fields : ∀ f ∈ t.fields, f.IsClosed
  indexes : ∀ i ∈ t.indexes, i.IsClosed
  policies : ∀ p ∈ t.policies, p.IsClosed
  triggers : ∀ g ∈ t.triggers, g.IsClosed

/-- A function whose texts can be written out. -/
structure Function.IsClosed (f : Function) : Prop where
  name : Closed f.name.toText
  args : ∀ arg ∈ f.args, Closed arg.toText
  returnType : Closed f.returnType.toText
  body : NoDollars f.body.toText
  language : Closed f.options.language.toText

/-- A view whose texts can be written out; its comment is free text. -/
structure View.IsClosed (v : View) : Prop where
  name : Closed v.name.toText
  query : Closed v.query.toText

/-- A custom type whose texts can be written out; the labels of an enum are free text. -/
structure CustomType.IsClosed (t : CustomType) : Prop where
  name : Closed t.name.toText
  columns : ∀ columns, t.fields.items = .ok columns → ∀ column ∈ columns,
    ∀ parts, column.items = .ok parts → ∀ part ∈ parts, Closed part.toText
  baseType : Closed t.baseType.toText
  constraint : Closed t.constraint.toText

/-- A storage bucket whose texts can be written out; its content types are free text. -/
structure StorageBucket.IsClosed (b : StorageBucket) : Prop where
  name : Closed b.name.toText
  policies : ∀ p ∈ b.policies, p.IsClosed

/-- A schema whose texts can be written out. -/
structure Schema.IsClosed (s : Schema) : Prop where
  tables : ∀ t ∈ s.tables, t.IsClosed
  functions : ∀ f ∈ s.functions, f.IsClosed
  views : ∀ v ∈ s.views, v.IsClosed
  storageBuckets : ∀ b ∈ s.storageBuckets, b.IsClosed
  customTypes : ∀ t ∈ s.customTypes, t.IsClosed

end SchemaCompiler

namespace SchemaCompiler.Sql

open Text (joinWith)

theorem isSeparator_comma : IsSeparator ", " := .of_chars rfl

theorem isSeparator_line : IsSeparator "\n" := .of_chars rfl

theorem isSeparator_empty_line : IsSeparator "\n\n" := .of_chars rfl

/-! ### Comments -/

/-- The number of statements for a comment. -/
def commentCount (comment : Value) : Nat := if comment.isNull then 0 else 1

theorem length_commentOn (object : String) (comment : Value) :
    (commentOn object comment).length = commentCount comment := by
  unfold commentOn commentCount
  split <;> rfl

/-- **A comment is one statement, whatever it says.** -/
theorem ends_commentOn {object : String} (h : Closed object) (comment : Value) :
    ∀ s ∈ commentOn object comment, Ends s .plain 1 := by
  intro s hs
  unfold commentOn at hs
  split at hs
  · exact absurd hs List.not_mem_nil
  · rw [List.mem_singleton.1 hs]
    refine (Ends.finish ?_ (.of_chars rfl)).ends
    refine Settles.closed ?_ (closed_literal comment)
    refine Ends.code ?_ (.of_chars rfl)
    refine Settles.closed ?_ h
    exact Passes.settles (.of_chars rfl)

/-- A statement and the comments after it. -/
theorem ends_withComments {s : String} (h : Ends s .plain 1) {comments : List String}
    (hc : ∀ c ∈ comments, Ends c .plain 1) :
    Ends (joinWith "\n" (s :: comments)) .plain (1 + comments.length) := by
  rw [Nat.add_comm]
  refine ends_joinWith_length isSeparator_line fun t ht => ?_
  rcases List.mem_cons.1 ht with rfl | ht
  · exact h
  · exact hc t ht

/-! ### Tables -/

theorem closed_referenceParts {o : FieldOptions} (h : Closed o.references.toText) :
    ∀ s ∈ referenceParts o, Closed s := by
  have hkeyword : ∀ a : ReferentialAction, Closed (spacedKeyword a) := fun a =>
    closed_spacedKeyword (closed_label (.referentialAction a))
  intro s hs
  unfold referenceParts at hs
  split at hs
  · rw [List.cons_append, List.mem_cons, List.mem_append, List.mem_map, List.mem_map] at hs
    rcases hs with rfl | ⟨a, -, rfl⟩ | ⟨a, -, rfl⟩
    · exact Passes.closed (.of_chars rfl) h
    · exact Passes.closed (.of_chars rfl) (hkeyword a)
    · exact Passes.closed (.of_chars rfl) (hkeyword a)
  · exact absurd hs List.not_mem_nil

/-- A part that is there under a condition. -/
theorem mem_ite_singleton {c : Prop} [Decidable c] {part s : String}
    (hs : s ∈ if c then [part] else []) : s = part := by
  split at hs
  · exact List.mem_singleton.1 hs
  · exact absurd hs List.not_mem_nil

theorem closed_defaultParts {v : Value} {parts : List String} (h : ClosedDefault v)
    (hparts : defaultParts v = .ok parts) : ∀ s ∈ parts, Closed s := by
  intro s hs
  rcases defaultParts_eq_ok.1 hparts with ⟨-, rfl⟩ | ⟨-, text, htext, rfl⟩
  · exact absurd hs List.not_mem_nil
  · rw [List.mem_singleton.1 hs]
    exact Passes.closed (.of_chars rfl) (closed_defaultText h htext)

theorem closed_constraintParts {o : FieldOptions} {default : List String}
    (hdefault : ∀ s ∈ default, Closed s) (hreferences : Closed o.references.toText)
    (hgenerated : Closed o.generated.toText) (markPrimaryKey : Bool) :
    ∀ s ∈ constraintParts o markPrimaryKey default, Closed s := by
  intro s hs
  simp only [constraintParts, List.mem_append] at hs
  rcases hs with ((((hs | hs) | hs) | hs) | hs) | hs
  · rw [mem_ite_singleton hs]
    exact .of_chars rfl
  · split at hs
    · rw [List.mem_singleton.1 hs]
      exact .of_chars rfl
    · exact absurd hs List.not_mem_nil
  · rw [mem_ite_singleton hs]
    exact .of_chars rfl
  · exact hdefault s hs
  · exact closed_referenceParts hreferences s hs
  · rw [mem_ite_singleton hs]
    refine (Ends.code ?_ (.of_chars rfl)).ends
    exact Passes.closed (.of_chars rfl) hgenerated

theorem closed_column {f : Field} (h : f.IsClosed) {markPrimaryKey : Bool} {text : String}
    (htext : column f markPrimaryKey = .ok text) : Closed text := by
  obtain ⟨type, default, htype, hdefault, rfl⟩ := column_eq_ok.1 htext
  refine closed_joinWith (.of_chars rfl) fun s hs => ?_
  rcases List.mem_cons.1 hs with rfl | hs
  · exact (Ends.code h.name (.of_chars rfl)).closed (closed_typeName h.type htype)
  · exact closed_constraintParts (closed_defaultParts h.default hdefault) h.references h.generated
      _ s hs

theorem textOnly_eq_ok {misuse : Misuse} {v : Value} {s : String}
    (h : Value.textOnly misuse v = .ok s) : v.toText = s := by
  cases v with
  | text t => exact Except.ok.inj h
  | _ => exact absurd h nofun

theorem closed_primaryKey {t : Table} (h : t.IsClosed) {names : List String}
    (hnames : t.primaryKey.mapM (Value.textOnly .wrongType) = .ok names) :
    ∀ s ∈ names, Closed s := by
  intro s hs
  obtain ⟨name, hname, htext⟩ := exists_item_of_mem hnames hs
  obtain ⟨f, hf, rfl⟩ := List.mem_map.1 hname
  rw [← textOnly_eq_ok htext]
  exact (h.fields f (List.mem_filter.1 hf).1).name

theorem closed_tableBody {t : Table} (h : t.IsClosed) {body : List String}
    (hbody : tableBody t = .ok body) : ∀ s ∈ body, Closed s := by
  obtain ⟨columns, hcolumns, hbody⟩ := bind_eq_ok.1 hbody
  have hclosed : ∀ s ∈ columns, Closed s := by
    intro s hs
    obtain ⟨f, hf, htext⟩ := exists_item_of_mem hcolumns hs
    exact closed_column (h.fields f hf) htext
  split at hbody
  · obtain ⟨names, hnames, hbody⟩ := bind_eq_ok.1 hbody
    rw [pure_eq_ok, Except.ok.injEq] at hbody
    rw [← hbody]
    intro s hs
    rcases List.mem_append.1 hs with hs | hs
    · exact hclosed s hs
    · rw [List.mem_singleton.1 hs]
      refine (Ends.code ?_ (.of_chars rfl)).ends
      refine Settles.closed ?_ (closed_joinWith isSeparator_comma (closed_primaryKey h hnames))
      exact Passes.settles (.of_chars rfl)
  · rw [pure_eq_ok, Except.ok.injEq] at hbody
    exact hbody ▸ hclosed

/-- The number of comments of a table and its columns. -/
def tableCommentCount (t : Table) : Nat :=
  commentCount t.options.comment + (t.fields.map fun f => commentCount f.options.comment).sum

theorem length_tableComments (t : Table) : (tableComments t).length = tableCommentCount t := by
  rw [tableComments, List.length_append, length_commentOn, List.length_flatMap, tableCommentCount]
  simp only [length_commentOn]

theorem ends_tableComments {t : Table} (h : t.IsClosed) :
    ∀ s ∈ tableComments t, Ends s .plain 1 := by
  intro s hs
  rcases List.mem_append.1 hs with hs | hs
  · refine ends_commentOn ?_ _ s hs
    exact Passes.closed (.of_chars rfl) h.name
  · obtain ⟨f, hf, hs⟩ := List.mem_flatMap.1 hs
    refine ends_commentOn ?_ _ s hs
    refine Settles.closed ?_ (h.fields f hf).name
    refine Ends.code ?_ (.of_chars rfl)
    exact Passes.closed (.of_chars rfl) h.name

/-- A table is one statement, and one for each comment. -/
theorem ends_createTable {t : Table} (h : t.IsClosed) {text : String}
    (htext : (createTable t).outcome = .ok text) :
    Ends text .plain (1 + tableCommentCount t) := by
  unfold createTable at htext
  simp only [Traced.outcome_bind, Traced.outcome_lift, Traced.outcome_note,
    Traced.outcome_pure] at htext
  obtain ⟨body, hbody, htext⟩ := bind_eq_ok.1 htext
  rw [ok_bind, Except.ok.injEq] at htext
  rw [← htext, ← length_tableComments]
  refine ends_withComments ?_ (ends_tableComments h)
  refine (Ends.finish ?_ (.of_chars rfl)).ends
  refine Settles.closed ?_ (closed_joinWith (.of_chars rfl) (closed_tableBody h hbody))
  refine Ends.code ?_ (.of_chars rfl)
  exact Passes.closed (.of_chars rfl) h.name

theorem ends_enableRowSecurity {table : Value} (h : Closed table.toText) :
    Ends (enableRowSecurity table) .plain 1 := by
  refine (Ends.finish ?_ (.of_chars rfl)).ends
  exact Passes.closed (.of_chars rfl) h

/-! ### Indexes -/

/-- An index is one statement, and one for its comment. -/
theorem ends_createIndex {table : Value} (htable : Closed table.toText) {i : Index}
    (h : i.IsClosed) :
    Ends (createIndex table i) .plain (1 + commentCount i.options.comment) := by
  have hname := closed_indexName htable h.fields h.name
  have hunique : Closed (if i.options.unique.isTrue then "UNIQUE " else "") := by
    split <;> exact .of_chars rfl
  have hmethod : Clause (if i.options.method.isTrue then " USING " ++ i.options.method.toText
      else "") := (Fixed.clause (.of_chars rfl) h.method).ite
  have hcondition : Clause (if i.options.condition.isTrue
      then " WHERE " ++ i.options.condition.toText else "") :=
    (Fixed.clause (.of_chars rfl) h.condition).ite
  rw [createIndex, ← length_commentOn ("INDEX " ++ (indexName table i).toText)]
  refine ends_withComments ?_ (ends_commentOn ?_ _)
  · refine (Ends.finish ?_ (.of_chars rfl)).ends
    refine Ends.clause ?_ hcondition
    refine (Ends.code ?_ (.of_chars rfl)).ends
    refine Settles.closed ?_ (closed_joinWith isSeparator_comma h.fields)
    refine Ends.code ?_ (.of_chars rfl)
    refine Ends.clause ?_ hmethod
    refine Settles.closed ?_ htable
    refine Ends.code ?_ (.of_chars rfl)
    refine Settles.closed ?_ hname
    refine Ends.code ?_ (.of_chars rfl)
    exact Passes.closed (.of_chars rfl) hunique
  · exact Passes.closed (.of_chars rfl) hname

theorem ends_createIndexes {t : Table} (h : t.IsClosed) :
    Ends (createIndexes t) .plain (t.indexes.map fun i => 1 + commentCount i.options.comment).sum :=
  ends_joinWith_map isSeparator_line fun i hi => ends_createIndex h.name (h.indexes i hi)

/-! ### Triggers -/

/-- **The function behind a trigger is one statement**, whatever statements its body has. -/
theorem ends_createTriggerFunction {table : Value} (htable : Closed table.toText) {t : Trigger}
    (h : t.IsClosed) : Ends (createTriggerFunction table t) .plain 1 := by
  refine (Settles.closes ?_ (.of_chars rfl)).ends
  refine Settles.inside ?_ (.of_chars rfl)
  refine Settles.inside ?_ (.of_chars rfl)
  refine Ends.inside ?_ (.of_chars rfl)
  refine Settles.body ?_ h.body.inside
  refine Settles.inside ?_ (.of_chars rfl)
  refine Settles.inside ?_ (.of_chars rfl)
  refine Ends.opens (Settles.ends ?_) (.of_chars rfl)
  refine Ends.code ?_ (.of_chars rfl)
  refine Settles.closed ?_ (closed_triggerFunctionName htable h.name)
  exact Passes.settles (.of_chars rfl)

theorem ends_attachTrigger {table : Value} (htable : Closed table.toText) {t : Trigger}
    (h : t.IsClosed) : Ends (attachTrigger table t) .plain 1 := by
  have hevents : ∀ s ∈ t.events.map (fun e => Text.upper e.toText), Closed s := by
    intro s hs
    obtain ⟨e, he, rfl⟩ := List.mem_map.1 hs
    exact closed_upper (h.events e he)
  have hcondition : Clause (if t.options.condition.isTrue
      then " WHEN (" ++ t.options.condition.toText ++ ")" else "") := by
    refine Clause.ite (Starts.clause (Starts.append (Starts.append (.of_chars rfl))) ?_)
    refine (Ends.code ?_ (.of_chars rfl)).ends
    exact Passes.closed (.of_chars rfl) h.condition
  have hscope : Closed (Vocabulary.keyword t.options.scope) :=
    closed_keyword (closed_label (.triggerScope t.options.scope))
  refine (Ends.finish ?_ (.of_chars rfl)).ends
  refine Settles.closed ?_ (closed_triggerFunctionName htable h.name)
  refine Settles.code ?_ (.of_chars rfl)
  refine Ends.code ?_ (.of_chars rfl)
  refine Ends.clause ?_ hcondition
  refine Settles.closed ?_ hscope
  refine Settles.code ?_ (.of_chars rfl)
  refine Ends.code ?_ (.of_chars rfl)
  refine Settles.closed ?_ htable
  refine Ends.code ?_ (.of_chars rfl)
  refine Settles.closed ?_ (closed_joinWith (.of_chars rfl) hevents)
  refine Ends.code ?_ (.of_chars rfl)
  refine Settles.closed ?_ (closed_spacedKeyword (closed_label (.triggerTiming t.options.timing)))
  refine Settles.code ?_ (.of_chars rfl)
  refine Ends.code ?_ (.of_chars rfl)
  exact Passes.closed (.of_chars rfl) h.name

theorem ends_createTriggers {t : Table} (h : t.IsClosed) :
    Ends (createTriggers t) .plain (t.triggers.map fun _ => 2).sum := by
  refine ends_joinWith_map isSeparator_empty_line fun g hg => ?_
  have hfunction := ends_createTriggerFunction h.name (h.triggers g hg)
  exact (Ends.code hfunction isSeparator_empty_line).append
    (ends_attachTrigger h.name (h.triggers g hg))

/-! ### Policies -/

theorem clause_roles {roles : Value} (h : ClosedRoles roles) :
    Clause (RowSecurity.roleClause roles) := by
  have hone : ∀ s, Closed s → Clause ("\n  TO " ++ s) := fun s hs => Fixed.clause (.of_chars rfl) hs
  have hamong : ∀ rs : List Value, (∀ r ∈ rs, Closed r.toText) →
      Clause (if rs.isEmpty || rs.any RowSecurity.isEveryone then ""
        else "\n  TO " ++ joinWith ", " (rs.map Value.toText)) := by
    intro rs hrs
    split
    · exact .empty
    · exact hone _ (closed_joinWith isSeparator_comma (List.forall_mem_map.2 hrs))
  unfold RowSecurity.roleClause
  split
  · exact .empty
  · exact hamong _ h
  · exact hamong _ h
  next hnull hlist htuple =>
    split
    · exact .empty
    · refine hone _ ?_
      cases roles with
      | list rs => exact absurd rfl (hlist rs)
      | tuple rs => exact absurd rfl (htuple rs)
      | _ => exact h

theorem clause_condition {keyword : String} (hkeyword : Passes keyword .plain .plain 0)
    {condition : Value} (h : Closed condition.toText) :
    Clause (RowSecurity.conditionClause keyword condition) := by
  refine Starts.clause (Starts.append (Starts.append (Starts.append (Starts.append
    (.of_chars rfl))))) ?_
  refine (Ends.code ?_ (.of_chars rfl)).ends
  refine Settles.closed ?_ h
  refine Settles.code ?_ (.of_chars rfl)
  exact (Passes.settles (.of_chars rfl)).text hkeyword

theorem clause_policyClauses {p : Policy} (h : p.IsClosed) :
    Clause (RowSecurity.policyClauses p).1 ∧ Clause (RowSecurity.policyClauses p).2 := by
  have hvisible : Clause (RowSecurity.conditionClause "USING" p.condition) :=
    clause_condition (.of_chars rfl) h.condition
  have hcheck : Clause (RowSecurity.conditionClause "WITH CHECK" p.condition) :=
    clause_condition (.of_chars rfl) h.condition
  unfold RowSecurity.policyClauses
  cases p.action with
  | insert => exact ⟨.empty, hcheck⟩
  | select | delete => exact ⟨hvisible, .empty⟩
  | update =>
    refine ⟨hvisible, ?_⟩
    show Clause (if _ then _ else _)
    split
    · exact clause_condition (.of_chars rfl) h.withCheck
    · exact .empty
  | all => exact ⟨hvisible, hcheck⟩

/-- A policy is two statements: the policy itself and its comment. -/
theorem ends_createNamedPolicy {table name : Value} (htable : Closed table.toText)
    (hname : Closed name.toText) {p : Policy} (h : p.IsClosed) :
    Ends (RowSecurity.createNamedPolicy table name p) .plain 2 := by
  obtain ⟨hvisible, hcheck⟩ := clause_policyClauses h
  have haction : Closed (RowSecurity.actionKeyword p.action) :=
    closed_keyword (closed_label (.policyAction p.action))
  refine (Ends.finish ?_ (.of_chars rfl)).ends
  refine Settles.closed ?_ (closed_literal p.description)
  refine Ends.code ?_ (.of_chars rfl)
  refine Settles.closed ?_ htable
  refine Ends.code ?_ (.of_chars rfl)
  refine Settles.closed ?_ hname
  refine Settles.code ?_ (.of_chars rfl)
  refine Ends.finish ?_ (.of_chars rfl)
  refine Ends.clause (Ends.clause (Ends.clause ?_ (clause_roles h.roles)) hvisible) hcheck
  refine Settles.closed ?_ haction
  refine Settles.code ?_ (.of_chars rfl)
  refine Ends.code ?_ (.of_chars rfl)
  refine Settles.closed ?_ htable
  refine Ends.code ?_ (.of_chars rfl)
  exact Passes.closed (.of_chars rfl) hname

theorem ends_createPolicies {t : Table} (h : t.IsClosed) {text : String}
    (htext : RowSecurity.createPolicies t = .ok text) :
    Ends text .plain (t.policies.map fun _ => 2).sum := by
  obtain ⟨texts, htexts, htext⟩ := bind_eq_ok.1 htext
  rw [pure_eq_ok, Except.ok.injEq] at htext
  rw [← htext]
  refine ends_joinWith isSeparator_line (ends_of_mapM htexts fun p hp s hs => ?_)
  obtain ⟨name, hname, hs⟩ := bind_eq_ok.1 hs
  rw [pure_eq_ok, Except.ok.injEq] at hs
  rw [← hs]
  exact ends_createNamedPolicy h.name (closed_policyName h.name (h.policies p hp).name hname)
    (h.policies p hp)

/-- A policy of a bucket is two statements as well. -/
theorem ends_createStoragePolicy {bucket : Value} (hbucket : Closed bucket.toText) {p : Policy}
    (h : p.IsClosed) : Ends (RowSecurity.createStoragePolicy bucket p) .plain 2 := by
  have hname := closed_storagePolicyName hbucket h.name
  have haction : Closed (RowSecurity.actionKeyword p.action) :=
    closed_keyword (closed_label (.policyAction p.action))
  have hobjects : Closed RowSecurity.storageObjects.toText := .of_chars rfl
  refine (Ends.finish ?_ (.of_chars rfl)).ends
  refine Settles.closed ?_ (closed_literal p.description)
  refine Ends.code ?_ (.of_chars rfl)
  refine Settles.closed ?_ hobjects
  refine Ends.code ?_ (.of_chars rfl)
  refine Settles.closed ?_ hname
  refine Settles.code ?_ (.of_chars rfl)
  refine Ends.finish ?_ (.of_chars rfl)
  refine Settles.closed ?_ h.condition
  refine Ends.code ?_ (.of_chars rfl)
  refine Settles.closed ?_ (closed_literal bucket)
  refine Settles.code ?_ (.of_chars rfl)
  refine Ends.code ?_ (.of_chars rfl)
  refine Ends.clause ?_ (clause_roles h.roles)
  refine Settles.closed ?_ haction
  refine Settles.code ?_ (.of_chars rfl)
  refine Ends.code ?_ (.of_chars rfl)
  refine Settles.closed ?_ hobjects
  refine Ends.code ?_ (.of_chars rfl)
  exact Passes.closed (.of_chars rfl) hname

/-! ### Other objects -/

/-- A number after a dollar sign, which starts no body. -/
theorem closed_position (position : Nat) : Closed ("$" ++ toString position) := by
  have hdigits : Ordinary (toString position).toList := by
    rw [show toString position = position.repr from rfl, Nat.toList_repr]
    exact ordinary_toDigits position
  have htext : ("$" ++ toString position).toList = '$' :: (toString position).toList := by
    rw [String.toList_append]
    rfl
  have hhead : (toString position).toList.head? ≠ some '$' := fun hhead =>
    absurd (hdigits '$' (List.mem_of_head? hhead)) (by decide)
  rw [Closed, Ends, htext, scan_plain_cons (by decide) (fun _ => hhead)
    (fun heq => absurd heq (by decide)) (by decide)]
  exact hdigits.scan .plain

/-- The arguments of a function are numbered after a dollar sign, which starts no body. -/
theorem closed_argumentList {args : List Value} (h : ∀ arg ∈ args, Closed arg.toText)
    {position : Nat} {texts : List String} (htexts : argumentList position args = .ok texts) :
    ∀ s ∈ texts, Closed s := by
  induction args generalizing position texts with
  | nil =>
    rw [← Except.ok.inj htexts]
    exact nofun
  | cons arg args ih =>
    obtain ⟨type, htype, htexts⟩ := bind_eq_ok.1 htexts
    obtain ⟨rest, hrest, htexts⟩ := bind_eq_ok.1 htexts
    rw [pure_eq_ok, Except.ok.injEq] at htexts
    rw [← htexts]
    intro s hs
    rcases List.mem_cons.1 hs with rfl | hs
    · have harg := closed_typeName (h arg List.mem_cons_self) htype
      refine Settles.closed (Ends.code ?_ (.of_chars rfl)) harg
      exact closed_position position
    · exact ih (fun a ha => h a (List.mem_cons_of_mem _ ha)) hrest s hs

/-- The body of a function stays inside its dollars. -/
theorem inside_functionBody {f : Function} (h : NoDollars f.body.toText) :
    Inside (functionBody f) := by
  unfold functionBody
  split
  · exact h.inside.between (.of_chars rfl) (.of_chars rfl)
  · exact h.inside

theorem ends_createFunction {f : Function} (h : f.IsClosed) {text : String}
    (htext : createFunction f = .ok text) : Ends text .plain 1 := by
  obtain ⟨args, hargs, htext⟩ := bind_eq_ok.1 htext
  obtain ⟨returnType, hreturn, htext⟩ := bind_eq_ok.1 htext
  rw [pure_eq_ok, Except.ok.injEq] at htext
  rw [← htext]
  refine (Ends.finish ?_ (.of_chars rfl)).ends
  refine Settles.closed ?_ h.language
  refine Ends.closes ?_ (.of_chars rfl)
  refine Settles.body ?_ (inside_functionBody h.body)
  refine Ends.opens ?_ (.of_chars rfl)
  refine Ends.clause (Ends.clause ?_ ?volatility) ?security
  · refine Settles.closed ?_ (closed_typeName h.returnType hreturn)
    refine Settles.code ?_ (.of_chars rfl)
    refine Ends.code ?_ (.of_chars rfl)
    refine Settles.closed ?_ (closed_joinWith isSeparator_comma (closed_argumentList h.args hargs))
    refine Ends.code ?_ (.of_chars rfl)
    exact Passes.closed (.of_chars rfl) h.name
  case volatility =>
    split
    next v _ => exact Fixed.clause (.of_chars rfl) (closed_keyword (closed_label (.volatility v)))
    next => exact .empty
  case security =>
    split
    next s _ => exact Fixed.clause (.of_chars rfl) (closed_keyword (closed_label (.securityMode s)))
    next => exact .empty

/-- A view is one statement, and one for its comment. -/
theorem ends_createView {v : View} (h : v.IsClosed) {text : String}
    (htext : createView v = .ok text) : Ends text .plain (1 + commentCount v.options.comment) := by
  obtain ⟨query, hquery, htext⟩ := bind_eq_ok.1 htext
  rw [pure_eq_ok, Except.ok.injEq] at htext
  have hkind : Closed (if v.options.materialized.isTrue then "MATERIALIZED VIEW" else "VIEW") := by
    split <;> exact .of_chars rfl
  have hobject := Settles.closed (Ends.code hkind (b := " ") (.of_chars rfl)) h.name
  have hstripped : Closed (Text.strip query) := closed_strip (textOnly_eq_ok hquery ▸ h.query)
  rw [← htext, ← length_commentOn ((if v.options.materialized.isTrue then "MATERIALIZED VIEW"
    else "VIEW") ++ " " ++ v.name.toText)]
  refine ends_withComments ?_ (ends_commentOn hobject _)
  refine (Ends.finish ?_ (.of_chars rfl)).ends
  refine Settles.closed ?_ hstripped
  refine Ends.code ?_ (.of_chars rfl)
  refine Settles.closed ?_ h.name
  refine Ends.code ?_ (.of_chars rfl)
  exact Passes.closed (.of_chars rfl) hkind

theorem closed_compositeColumn {column : Value} (h : ∀ parts, column.items = .ok parts →
    ∀ part ∈ parts, Closed part.toText) {text : String} (htext : compositeColumn column = .ok text) :
    Closed text := by
  obtain ⟨parts, hparts, htext⟩ := bind_eq_ok.1 htext
  split at htext
  next name type =>
    obtain ⟨typeText, htype, htext⟩ := bind_eq_ok.1 htext
    rw [pure_eq_ok, Except.ok.injEq] at htext
    rw [← htext]
    have hclosed := h _ hparts
    exact (Ends.code (hclosed name (by simp)) (.of_chars rfl)).closed
      (closed_typeName (hclosed type (by simp)) htype)
  next => exact absurd htext nofun

/-- **A custom type is one statement**, whatever the labels of an enum say. -/
theorem ends_createType {t : CustomType} (h : t.IsClosed) {text : String}
    (htext : createType t = .ok text) : Ends text .plain 1 := by
  unfold createType at htext
  split at htext
  · obtain ⟨labels, hlabels, htext⟩ := bind_eq_ok.1 htext
    rw [pure_eq_ok, Except.ok.injEq] at htext
    have hliterals : ∀ s ∈ labels.map literal, Closed s :=
      List.forall_mem_map.2 fun label _ => closed_literal label
    rw [← htext]
    refine (Ends.finish ?_ (.of_chars rfl)).ends
    refine Settles.closed ?_ (closed_joinWith isSeparator_comma hliterals)
    refine Ends.code ?_ (.of_chars rfl)
    exact Passes.closed (.of_chars rfl) h.name
  · obtain ⟨columns, hcolumns, htext⟩ := bind_eq_ok.1 htext
    obtain ⟨texts, htexts, htext⟩ := bind_eq_ok.1 htext
    rw [pure_eq_ok, Except.ok.injEq] at htext
    have hclosed : ∀ s ∈ texts, Closed s := by
      intro s hs
      obtain ⟨column, hcolumn, hs⟩ := exists_item_of_mem htexts hs
      exact closed_compositeColumn (h.columns columns hcolumns column hcolumn) hs
    rw [← htext]
    refine (Ends.finish ?_ (.of_chars rfl)).ends
    refine Settles.closed ?_ (closed_joinWith isSeparator_comma hclosed)
    refine Ends.code ?_ (.of_chars rfl)
    exact Passes.closed (.of_chars rfl) h.name
  · obtain ⟨base, hbase, htext⟩ := bind_eq_ok.1 htext
    rw [pure_eq_ok, Except.ok.injEq] at htext
    have hconstraint : Clause (if t.constraint.isTrue then
        " CONSTRAINT " ++ t.name.toText ++ "_check CHECK (" ++ t.constraint.toText ++ ")"
        else "") := by
      refine Clause.ite (Starts.clause (.append (.append (.append (.append (.of_chars rfl))))) ?_)
      refine (Ends.code ?_ (.of_chars rfl)).ends
      refine Settles.closed ?_ h.constraint
      refine Ends.code ?_ (.of_chars rfl)
      exact Passes.closed (.of_chars rfl) h.name
    rw [← htext]
    refine (Ends.finish ?_ (.of_chars rfl)).ends
    refine Ends.clause ?_ hconstraint
    refine Settles.closed ?_ (closed_typeName h.baseType hbase)
    refine Ends.code ?_ (.of_chars rfl)
    exact Passes.closed (.of_chars rfl) h.name

theorem closed_fileSizeLimit {limit : Value} {text : String}
    (h : (fileSizeLimit limit).outcome = .ok text) : Closed text := by
  unfold fileSizeLimit at h
  split at h
  · rw [← Except.ok.inj h]
    exact .of_chars rfl
  · rw [Traced.outcome_bind, Traced.outcome_lift] at h
    obtain ⟨size, -, h⟩ := bind_eq_ok.1 h
    split at h
    · obtain ⟨-, rfl⟩ := wholeText_eq_ok.1 h
      exact closed_int _
    · rw [Traced.outcome_bind, Traced.outcome_note] at h
      rw [← Except.ok.inj h]
      exact .of_chars rfl

theorem closed_mimeTypes {types : Value} {text : String} (h : mimeTypes types = .ok text) :
    Closed text := by
  unfold mimeTypes at h
  split at h
  · rw [← Except.ok.inj h]
    exact .of_chars rfl
  split at h
  · obtain ⟨items, -, h⟩ := bind_eq_ok.1 h
    rw [pure_eq_ok, Except.ok.injEq] at h
    have hliterals : ∀ s ∈ items.map literal, Closed s :=
      List.forall_mem_map.2 fun item _ => closed_literal item
    rw [← h]
    refine (Ends.code ?_ (.of_chars rfl)).ends
    refine Settles.closed ?_ (closed_joinWith isSeparator_comma hliterals)
    exact Passes.settles (.of_chars rfl)
  · rw [← Except.ok.inj h]
    exact .of_chars rfl

/-- **The row of a bucket is one statement**, whatever its content types say. -/
theorem ends_upsertBucket {b : StorageBucket} {text : String}
    (htext : (upsertBucket b).outcome = .ok text) : Ends text .plain 1 := by
  unfold upsertBucket at htext
  simp only [Traced.outcome_bind, Traced.outcome_lift, Traced.outcome_pure] at htext
  obtain ⟨limit, hlimit, htext⟩ := bind_eq_ok.1 htext
  obtain ⟨types, htypes, htext⟩ := bind_eq_ok.1 htext
  rw [Except.ok.injEq] at htext
  have hpublic : Closed (if b.options.isPublic.isTrue then "true" else "false") := by
    split <;> exact .of_chars rfl
  rw [← htext]
  refine (Ends.finish (Settles.ends ?_) (.of_chars rfl)).ends
  refine Settles.code ?_ (.of_chars rfl)
  refine Settles.code ?_ (.of_chars rfl)
  refine Settles.code ?_ (.of_chars rfl)
  refine Settles.code ?_ (.of_chars rfl)
  refine Ends.code ?_ (.of_chars rfl)
  refine Settles.closed ?_ (closed_mimeTypes htypes)
  refine Ends.code ?_ (.of_chars rfl)
  refine Settles.closed ?_ (closed_fileSizeLimit hlimit)
  refine Ends.code ?_ (.of_chars rfl)
  refine Settles.closed ?_ hpublic
  refine Ends.code ?_ (.of_chars rfl)
  refine Settles.closed ?_ (closed_literal b.name)
  refine Ends.code ?_ (.of_chars rfl)
  refine Settles.closed ?_ (closed_literal b.name)
  refine Settles.code ?_ (.of_chars rfl)
  exact Passes.settles (.of_chars rfl)

end SchemaCompiler.Sql
