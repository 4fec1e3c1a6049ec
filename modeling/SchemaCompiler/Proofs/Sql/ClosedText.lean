import SchemaCompiler.Proofs.Sql.Default
import SchemaCompiler.Proofs.Sql.Reshaping
import SchemaCompiler.RowSecurity.Name
import SchemaCompiler.Sql.Table

/-!
# Names, types and defaults

The texts that are made for a statement from what a schema says are closed.

* `closed_derivedName` — the name that a policy gets from its table, **whatever its description
  says**;
* `closed_indexName`, `closed_triggerFunctionName` — names put together from others;
* `closed_typeName` — the name of a type;
* `closed_defaultText` — defaults, plain texts of any kind among them.
-/

namespace SchemaCompiler.Sql

open Text (joinWith)

/-! ### Names -/

/-- A word is made of characters that are not blank. -/
theorem mem_wordsFrom {word cs w : List Char} (hw : w ∈ Text.wordsFrom word cs) {c : Char}
    (hc : c ∈ w) : c ∈ word ∨ c ∈ cs ∧ Text.isBlank c = false := by
  fun_induction Text.wordsFrom word cs with
  | case1 => exact absurd hw List.not_mem_nil
  | case2 word hword =>
    rw [List.mem_singleton.1 hw] at hc
    exact Or.inl (List.mem_reverse.1 hc)
  | case3 word d cs hd hword ih =>
    rcases ih hw with h | h
    · exact absurd h List.not_mem_nil
    · exact Or.inr ⟨List.mem_cons_of_mem d h.1, h.2⟩
  | case4 word d cs hd hword ih =>
    rcases List.mem_cons.1 hw with rfl | hw
    · exact Or.inl (List.mem_reverse.1 hc)
    · rcases ih hw with h | h
      · exact absurd h List.not_mem_nil
      · exact Or.inr ⟨List.mem_cons_of_mem d h.1, h.2⟩
  | case5 word d cs hd ih =>
    rcases ih hw with h | h
    · rcases List.mem_cons.1 h with rfl | h
      · exact Or.inr ⟨List.mem_cons_self, by simpa using hd⟩
      · exact Or.inl h
    · exact Or.inr ⟨List.mem_cons_of_mem d h.1, h.2⟩

/-- The words of a description that go into a name are ordinary text, whatever it says. -/
theorem ordinary_descriptionWords {description : String} {w : List Char}
    (hw : w ∈ RowSecurity.descriptionWords description) : Ordinary w := by
  intro c hc
  rcases mem_wordsFrom hw hc with h | ⟨hmem, hblank⟩
  · exact absurd h List.not_mem_nil
  · have hchar := (List.mem_filter.1 hmem).2
    rw [hblank, Bool.or_false] at hchar
    exact isOrdinary_of hchar rfl

/-- The parts of a name are put together with low lines. -/
theorem isSeparator_lowLine : IsSeparator "_" := .of_chars rfl

theorem closed_label : ∀ m : Member, Closed m.label := by
  rintro (m | m | m | m | m | m | m | m) <;> cases m <;> exact .of_chars rfl

/-- **The name that a policy gets from its table is closed**, whatever its description says. -/
theorem closed_derivedName {table : Value} (htable : Closed table.toText) {action : PolicyAction}
    {description : Value} {name : String}
    (h : RowSecurity.derivedName table action description = .ok name) : Closed name := by
  obtain ⟨text, -, hname⟩ := bind_eq_ok.1 h
  rw [pure_eq_ok, Except.ok.injEq] at hname
  rw [← hname]
  have haction : Closed (Vocabulary.label action) := closed_label (.policyAction action)
  have hwords : Closed (joinWith "_"
      (((RowSecurity.descriptionWords text).take 3).map String.ofList)) := by
    refine closed_joinWith isSeparator_lowLine fun s hs => ?_
    obtain ⟨w, hw, rfl⟩ := List.mem_map.1 hs
    refine closed_of_ordinary ?_
    rw [String.toList_ofList]
    exact ordinary_descriptionWords (List.mem_of_mem_take hw)
  exact (((htable.code isSeparator_lowLine).closed haction).code isSeparator_lowLine).closed hwords

theorem closed_policyName {table : Value} (htable : Closed table.toText) {p : Policy}
    (hexplicit : Closed p.options.name.toText) {name : Value}
    (h : RowSecurity.policyName table p = .ok name) : Closed name.toText := by
  unfold RowSecurity.policyName at h
  split at h
  · rw [Except.ok.injEq] at h
    exact h ▸ hexplicit
  · obtain ⟨text, htext, rfl⟩ := map_eq_ok.1 h
    exact closed_derivedName htable htext

theorem closed_storagePolicyName {bucket : Value} (hbucket : Closed bucket.toText) {p : Policy}
    (hexplicit : Closed p.options.name.toText) :
    Closed (RowSecurity.storagePolicyName bucket p).toText := by
  unfold RowSecurity.storagePolicyName
  split
  · exact hexplicit
  · have haction : Closed (Vocabulary.label p.action) := closed_label (.policyAction p.action)
    exact (((hbucket.code isSeparator_lowLine).closed haction).code (.of_chars rfl)).ends

theorem closed_indexName {table : Value} (htable : Closed table.toText) {i : Index}
    (hfields : ∀ f ∈ i.fields, Closed f) (hexplicit : Closed i.options.name.toText) :
    Closed (indexName table i).toText := by
  unfold indexName
  split
  · exact hexplicit
  · have hjoined := closed_joinWith isSeparator_lowLine hfields
    have hname := ((htable.code isSeparator_lowLine).closed hjoined).code isSeparator_lowLine
    show Closed (table.toText ++ "_" ++ joinWith "_" i.fields ++ "_" ++
      (if i.options.unique.isTrue then "unique" else "idx"))
    split <;> exact hname.closed (.of_chars rfl)

theorem closed_triggerFunctionName {table : Value} (htable : Closed table.toText) {t : Trigger}
    (hname : Closed t.name.toText) : Closed (triggerFunctionName table t) :=
  (((htable.code isSeparator_lowLine).closed hname).code (.of_chars rfl)).ends

/-- What holds of a type, of what short names stand for and of the labels of members holds of the
name of the type. -/
theorem typeName_induction {P : String → Prop} (haliases : ∀ a ∈ typeAliases, P a.2)
    (hlabels : ∀ m : Member, P m.label) {type name : Value} (htype : P type.toText)
    (h : typeName type = .ok name) : P name.toText := by
  have htext : ∀ s, P s → P ((typeAliases.lookup s).getD s) := by
    intro s hs
    cases hlookup : typeAliases.lookup s with
    | none => exact hs
    | some t =>
      obtain ⟨before, after, hmem, -⟩ := List.lookup_eq_some_iff.1 hlookup
      exact haliases (s, t) (by simp [hmem])
  unfold typeName at h
  split at h
  next s hs =>
    rw [Except.ok.injEq] at h
    rw [← h]
    refine htext s ?_
    cases type with
    | member m =>
      have hlabel : m.label = s := Value.text.inj hs
      exact hlabel ▸ hlabels m
    | text t =>
      have ht : t = s := Value.text.inj hs
      exact ht ▸ htype
    | _ => exact absurd hs nofun
  next hother =>
    split at h
    · rw [Except.ok.injEq] at h
      cases type with
      | member m => exact absurd rfl (hother m.label)
      | _ => exact h ▸ htype
    · exact absurd h nofun

/-- The name of a type is closed if the type is, also where it stands for another. -/
theorem closed_typeName {type name : Value} (htype : Closed type.toText)
    (h : typeName type = .ok name) : Closed name.toText :=
  typeName_induction (by decide +kernel) closed_label htype h

/-- The keyword for a member is closed. -/
theorem closed_keyword {α : Type} [Vocabulary α] {m : α} (h : Closed (Vocabulary.label m)) :
    Closed (Vocabulary.keyword m) := closed_upper h

/-- So it is with spaces between its words. -/
theorem closed_spacedKeyword {α : Type} [Vocabulary α] {m : α}
    (h : Closed (Vocabulary.label m)) : Closed (spacedKeyword m) := by
  have hkeeps : KeepsMarks fun c => [if c = '_' then ' ' else c] := by
    refine ⟨fun c hc => ?_, fun c hc d hd => ?_, fun c => List.cons_ne_nil _ _⟩
    · rw [if_neg]
      rintro rfl
      exact hc (by decide)
    · rw [List.mem_singleton.1 hd]
      split
      · decide
      · exact hc
  rw [Closed, Ends, spacedKeyword, String.toList_ofList, List.map_eq_flatMap, hkeeps.scan_flatMap]
  exact closed_keyword h

/-! ### Defaults -/

/-- A default that can be written: an expression has to be closed, and the diagnostic of a
not-a-number has to be the run of digits that it is for every number that was read. -/
def ClosedDefault : Value → Prop
  | .text s => isExpression s.toList = true → Closed s
  | .decimal (.nan _ _ diagnostic _) => Ordinary diagnostic.toList
  | _ => True

/-- **Defaults are closed**, also those that are plain texts of any kind. -/
theorem closed_defaultText {v : Value} {text : String} (h : ClosedDefault v)
    (htext : defaultText v = .ok text) : Closed text := by
  cases v with
  | int n =>
    obtain ⟨-, rfl⟩ := wholeText_eq_ok.1 htext
    exact closed_int n
  | bool b =>
    cases htext
    cases b <;> exact .of_chars rfl
  | float x =>
    cases htext
    exact closed_float x
  | decimal d =>
    cases htext
    refine closed_decimal fun negative signaling diagnostic tag hd => ?_
    rw [hd] at h
    exact h
  | text s =>
    cases htext
    split
    · exact h ‹_›
    · exact closed_textLiteral s
  | null | list _ | tuple _ | mapping _ | member _ | record _ _ =>
    cases htext
    exact closed_literal _

end SchemaCompiler.Sql
