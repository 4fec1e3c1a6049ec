import SchemaCompiler.Proofs.Schema.Definition
import SchemaCompiler.Proofs.Sql.ColumnText
import SchemaCompiler.Proofs.Sql.Default

/-!
# What the definition of a field says

A field becomes the definition of a column.  Where its names and its default are single words, this
can be read back, and little is lost: an expression or a reference that is empty counts as absent,
and the actions of a foreign key are shown with the key only.

* `isWord_defaultText`, `readDefault_defaultText` — constants as defaults, and what they are;
* `Field.columnText`, `Field.toList_column` — the definition of a field;
* `Field.Legible`, `Field.Agrees` — fields that can be read back, and what they have in common;
* `Field.Legible.agrees` — **fields with the same definition and the same comment agree**.
-/

namespace SchemaCompiler

open Sql
open Text (written)

namespace Sql

/-! ### Texts in one word -/

theorem IsWord.of_forall {s : String} {p : Char → Bool} (h : ∀ c ∈ s.toList, p c = true)
    (hp : (p ' ' || p '\n') = false) : IsWord s := by
  rw [Bool.or_eq_false_iff] at hp
  constructor
  · intro hspace
    exact Bool.false_ne_true (hp.1.symm.trans (h ' ' hspace))
  · intro hend
    exact Bool.false_ne_true (hp.2.symm.trans (h '\n' hend))

/-- A number is written with digits and a sign. -/
theorem isDigit_of_mem_int {n : Int} {c : Char} (hc : c ∈ (toString n).toList) :
    (c.isDigit || c == '-') = true := by
  have hdigit (k : Nat) (hk : c ∈ Nat.toDigits 10 k) : (c.isDigit || c == '-') = true := by
    rw [Nat.isDigit_of_mem_toDigits (by decide) (by decide) hk, Bool.true_or]
  cases n with
  | ofNat k => exact hdigit k (Nat.toList_repr (n := k) ▸ hc)
  | negSucc k =>
    rw [toString_negSucc, String.toList_ofList, List.mem_cons] at hc
    rcases hc with rfl | hc
    · rfl
    · exact hdigit (k + 1) hc

theorem isWord_int (n : Int) : IsWord (toString n) := .of_forall (fun _ => isDigit_of_mem_int) rfl

theorem mem_of_mem_doubleQuotes {c : Char} {cs : List Char} (h : c ∈ doubleQuotes cs) : c ∈ cs := by
  obtain ⟨d, hd, hc⟩ := List.mem_flatMap.1 h
  split at hc
  next hquote =>
    rw [List.mem_pair, or_self] at hc
    rwa [hc, ← hquote]
  next => rwa [List.mem_singleton.1 hc]

theorem isWord_textLiteral {s : String} (h : IsWord s) : IsWord (textLiteral s) := by
  have hchar {c : Char} (hquote : c ≠ '\'') (hc : c ∉ s.toList) : c ∉ (textLiteral s).toList := by
    rw [toList_textLiteral, List.mem_cons, List.mem_append, List.mem_singleton]
    rintro (rfl | hmem | rfl)
    · exact hquote rfl
    · exact hc (mem_of_mem_doubleQuotes hmem)
    · exact hquote rfl
  exact ⟨hchar (by decide) h.1, hchar (by decide) h.2⟩

/-- The name of a type is a word if the type is, also where it stands for another. -/
theorem isWord_typeName {type name : Value} (htype : IsWord type.toText)
    (h : typeName type = .ok name) : IsWord name.toText := by
  have haliases : ∀ a ∈ typeAliases, IsWord a.2 := by decide +kernel
  have hlabels : ∀ m : Member, IsWord m.label := by
    rintro (m | m | m | m | m | m | m | m) <;> cases m <;> decide
  exact typeName_induction haliases hlabels htype h

/-! ### Defaults -/

/-- A default that is a value: none, a number without a fraction, a truth value, or a text that is
not taken for an expression. -/
def IsConstant : Value → Prop
  | .null | .int _ | .bool _ => True
  | .text s => isExpression s.toList = false
  | _ => False

/-- A constant that is a text is written as a literal. -/
theorem defaultText_text {s : String} (h : isExpression s.toList = false) :
    defaultText (.text s) = .ok (textLiteral s) := by
  rw [defaultText, h, if_neg Bool.false_ne_true]

theorem isWord_defaultText {v : Value} {text : String} (h : IsConstant v)
    (htext : defaultText v = .ok text) : IsWord text := by
  cases v with
  | null =>
    cases htext
    exact ⟨by decide, by decide⟩
  | bool b =>
    cases htext
    cases b <;> exact ⟨by decide, by decide⟩
  | int n =>
    obtain ⟨-, rfl⟩ := wholeText_eq_ok.1 htext
    exact isWord_int n
  | text s =>
    have hplain : isExpression s.toList = false := h
    obtain rfl := Except.ok.inj ((defaultText_text hplain).symm.trans htext)
    refine isWord_textLiteral (.of_forall (p := fun c => !Text.isBlank c) (fun c hc => ?_) rfl)
    rw [isExpression, List.any_eq_false] at hplain
    have hchar := hplain c hc
    simp only [Bool.or_eq_true, not_or] at hchar
    simpa using hchar.2
  | _ => exact h.elim

/-- The value that a default stands for. -/
def readDefault (s : String) : Option Value :=
  if s = "true" then some (.bool true)
  else if s = "false" then some (.bool false)
  else match readLiteral s.toList with
    | some (text, _) => some (.text text)
    | none => s.toInt?.map .int

/-- **The default of a column is read back.** -/
theorem readDefault_defaultText {v : Value} {text : String} (h : IsConstant v) (hnull : v ≠ .null)
    (htext : defaultText v = .ok text) : readDefault text = some v := by
  cases v with
  | null => exact absurd rfl hnull
  | bool b =>
    cases htext
    cases b <;> rfl
  | int n =>
    obtain ⟨-, rfl⟩ := wholeText_eq_ok.1 htext
    have hquote : readLiteral (toString n).toList = none := by
      cases hchars : (toString n).toList with
      | nil => rfl
      | cons c cs =>
        have hdigit := isDigit_of_mem_int (n := n) (hchars ▸ List.mem_cons_self)
        rw [readLiteral]
        rintro cs' heq
        rw [(List.cons.inj heq).1] at hdigit
        exact absurd hdigit (by decide)
    have hvalue : (toString n).toInt? = some n := Int.toInt?_repr n
    have hword {s : String} (hs : (s.toList.all fun c => c.isDigit || c == '-') = false) :
        toString n ≠ s := by
      rintro rfl
      exact Bool.false_ne_true (hs.symm.trans (List.all_eq_true.2 fun _ => isDigit_of_mem_int))
    rw [readDefault, if_neg (hword (by decide)), if_neg (hword (by decide)), hquote]
    dsimp only
    rw [hvalue]
    rfl
  | text s =>
    have hplain : isExpression s.toList = false := h
    obtain rfl := Except.ok.inj ((defaultText_text hplain).symm.trans htext)
    have hread : readLiteral (textLiteral s).toList = some (s, []) := by
      have hend := readLiteral_textLiteral s (show ([] : List Char).head? ≠ some '\'' by decide)
      rwa [List.append_nil] at hend
    have hword {s' : String} (hs' : readLiteral s'.toList = none) : textLiteral s ≠ s' := by
      rintro rfl
      rw [hread] at hs'
      cases hs'
    rw [readDefault, if_neg (hword (by decide)), if_neg (hword (by decide)), hread]
  | _ => exact h.elim

end Sql

/-! ### Fields -/

/-- The text of a value that counts as given. -/
def Value.given? (v : Value) : Option String := if v.isTrue then some v.toText else none

/-- The text of a value that is not null. -/
def Value.present? (v : Value) : Option String := if v.isNull then none else some v.toText

namespace Field

/-- The name of the type of a field. -/
def typeText (f : Field) : String :=
  match typeName f.type with
  | .ok type => type.toText
  | .error _ => ""

/-- Whether a field may not be null. -/
def isRequired (f : Field) : Bool :=
  match f.options.null with
  | .bool false => true
  | _ => false

/-- The action of a foreign key, if there is one. -/
def referential? (f : Field) (action : Option ReferentialAction) : Option ReferentialAction :=
  if f.options.references.isTrue then action else none

/-- The text of the default of a field, if it has one and it can be written. -/
def defaultText? (f : Field) : Option String :=
  if f.options.default.isNull then none else (defaultText f.options.default).toOption

/-- What the definition of a field says, if its primary key is marked at its column or not. -/
def columnText (f : Field) (markPrimaryKey : Bool) : ColumnText where
  name := f.name.toText
  type := f.typeText
  primaryKey := f.options.primaryKey.isTrue && markPrimaryKey
  notNull := f.isRequired
  unique := f.options.unique.isTrue
  default := f.defaultText?
  references := f.options.references.given?
  onDelete := f.referential? f.options.onDelete
  onUpdate := f.referential? f.options.onUpdate
  generated := f.options.generated.given?

/-- The parts of a definition, each of them there or not. -/
theorem constraintParts_options (f : Field) (markPrimaryKey : Bool) (default : List String) :
    constraintParts f.options markPrimaryKey default =
      (if f.options.primaryKey.isTrue && markPrimaryKey then ["PRIMARY KEY"] else []) ++
      (if f.isRequired then ["NOT NULL"] else []) ++
      (if f.options.unique.isTrue then ["UNIQUE"] else []) ++
      default ++
      referenceParts f.options ++
      (if f.options.generated.isTrue
        then ["GENERATED ALWAYS AS (" ++ f.options.generated.toText ++ ") STORED"] else []) := by
  unfold constraintParts isRequired
  cases f.options.null with
  | bool b => cases b <;> rfl
  | _ => rfl

/-- Parts with a space before each. -/
def spaced (parts : List String) : List Char := parts.flatMap fun s => " ".toList ++ s.toList

theorem spaced_flag (b : Bool) (keyword : String) :
    spaced (if b = true then [keyword] else []) = flag (" " ++ keyword) b := by
  cases b <;> simp [spaced, flag, written]

theorem spaced_defaultParts {f : Field} {parts : List String}
    (h : defaultParts f.options.default = .ok parts) :
    spaced parts = written " DEFAULT " id f.defaultText? := by
  unfold defaultText?
  rcases defaultParts_eq_ok.1 h with ⟨hnull, rfl⟩ | ⟨hnull, text, htext, rfl⟩
  · rw [if_pos hnull]
    rfl
  · rw [if_neg (Bool.eq_false_iff.1 hnull), htext]
    simp [spaced, written, Except.toOption]

theorem spaced_referenceParts (f : Field) : spaced (referenceParts f.options) =
    written " REFERENCES " id f.options.references.given? ++
      (written " ON DELETE " spacedKeyword (f.referential? f.options.onDelete) ++
        written " ON UPDATE " spacedKeyword (f.referential? f.options.onUpdate)) := by
  unfold spaced referenceParts Value.given? referential?
  split
  · cases f.options.onDelete <;> cases f.options.onUpdate <;> simp [written]
  · rfl

/-- **The definition of a field** is that of its column. -/
theorem toList_column {f : Field} {markPrimaryKey : Bool} {text : String}
    (h : column f markPrimaryKey = .ok text) :
    text.toList = (f.columnText markPrimaryKey).chars := by
  obtain ⟨type, default, htype, hdefault, rfl⟩ := column_eq_ok.1 h
  have htypeText : type.toText = f.typeText := by rw [typeText, htype]
  have hparts : spaced (constraintParts f.options markPrimaryKey default) =
      (f.columnText markPrimaryKey).clauses := by
    have happend (xs ys : List String) : spaced (xs ++ ys) = spaced xs ++ spaced ys :=
      List.flatMap_append
    have hgenerated : spaced (if f.options.generated.isTrue
        then ["GENERATED ALWAYS AS (" ++ f.options.generated.toText ++ ") STORED"] else []) =
        written " GENERATED ALWAYS AS (" (· ++ ") STORED") f.options.generated.given? := by
      unfold Value.given?
      split <;> simp [spaced, written]
    rw [constraintParts_options]
    simp only [happend, List.append_assoc]
    rw [spaced_flag, spaced_flag, spaced_flag, spaced_defaultParts hdefault,
      spaced_referenceParts, hgenerated, ColumnText.clauses]
    simp only [List.append_assoc, List.append_nil]
    rfl
  rw [Text.toList_joinWith_cons, htypeText]
  show _ ++ spaced _ = _
  rw [hparts, ColumnText.chars]
  simp only [String.toList_append, List.append_assoc]
  rfl

end Field

namespace Value

theorem given?_eq_some {v : Value} {s : String} (h : v.given? = some s) : s = v.toText := by
  unfold given? at h
  split at h
  · exact (Option.some.inj h).symm
  · cases h

/-- A text or nothing is known by its text. -/
theorem present?_inj {v w : Value} (hv : v.IsTextOrNull) (hw : w.IsTextOrNull)
    (h : v.present? = w.present?) : v = w := by
  rcases hv with rfl | ⟨s, rfl⟩ <;> rcases hw with rfl | ⟨t, rfl⟩
  · rfl
  · cases h
  · cases h
  · exact congrArg Value.text (Option.some.inj h)

/-- A text that is not empty, or nothing, counts as given if it is present. -/
theorem given?_eq_present? {v : Value} (h : v = .null ∨ ∃ s, v = .text s ∧ s ≠ "") :
    v.given? = v.present? := by
  rcases h with rfl | ⟨s, rfl, hs⟩
  · rfl
  · have hgiven : (Value.text s).isTrue = true := by simp [isTrue, hs]
    rw [given?, if_pos hgiven]
    rfl

end Value

namespace Field

/-- A field with parts that can be told from the format. -/
structure Legible (f : Field) : Prop where
  name : ∃ s, f.name = .text s ∧ IsWord s
  type : ∃ s, f.type = .text s ∧ IsWord s
  default : IsConstant f.options.default
  references : f.options.references = .null ∨
    ∃ s, f.options.references = .text s ∧ s ≠ "" ∧ IsWord s
  generated : f.options.generated = .null ∨ ∃ s, f.options.generated = .text s ∧ '\n' ∉ s.toList
  comment : f.options.comment.IsTextOrNull

/-- Two fields that agree in all that the definition of a column and its comment can say. -/
structure Agrees (f g : Field) : Prop where
  name : f.name = g.name
  type : typeName f.type = typeName g.type
  primaryKey : f.options.primaryKey.isTrue = g.options.primaryKey.isTrue
  isRequired : f.isRequired = g.isRequired
  unique : f.options.unique.isTrue = g.options.unique.isTrue
  default : f.options.default = g.options.default
  references : f.options.references = g.options.references
  onDelete : f.options.references.isTrue = true → f.options.onDelete = g.options.onDelete
  onUpdate : f.options.references.isTrue = true → f.options.onUpdate = g.options.onUpdate
  generated : f.options.generated.given? = g.options.generated.given?
  comment : f.options.comment = g.options.comment

theorem Legible.typeName_eq {f : Field} (h : f.Legible) :
    typeName f.type = .ok (.text f.typeText) := by
  obtain ⟨s, hs, -⟩ := h.type
  rw [typeText, hs]
  rfl

/-- The definition of such a field is legible. -/
theorem Legible.columnText {f : Field} (h : f.Legible) (markPrimaryKey : Bool) :
    (f.columnText markPrimaryKey).Legible where
  name := by
    obtain ⟨s, hs, hword⟩ := h.name
    rw [Field.columnText, hs]
    exact hword
  type := by
    obtain ⟨s, hs, hword⟩ := h.type
    refine isWord_typeName ?_ h.typeName_eq
    rw [hs]
    exact hword
  default := by
    intro d hd
    rw [Field.columnText] at hd
    dsimp only [defaultText?] at hd
    split at hd
    · cases hd
    · exact isWord_defaultText h.default (toOption_eq_some.1 hd)
  references := by
    intro r hr
    rcases h.references with hnull | ⟨s, hs, -, hword⟩
    · rw [Field.columnText, hnull] at hr
      cases hr
    · rw [Value.given?_eq_some hr, hs]
      exact hword
  generated := by
    intro g hg
    rcases h.generated with hnull | ⟨s, hs, hline⟩
    · rw [Field.columnText, hnull] at hg
      cases hg
    · rw [Value.given?_eq_some hg, hs]
      exact hline

/-- A default that can be written is read back. -/
theorem bind_readDefault {f : Field} (hf : f.Legible) (hfew : FewDigits f.options.default) :
    f.defaultText?.bind readDefault =
      if f.options.default.isNull then none else some f.options.default := by
  unfold defaultText?
  split
  next => rfl
  next hnull =>
    obtain ⟨text, htext⟩ := succeeds_defaultText.2 hfew
    rw [htext]
    refine readDefault_defaultText hf.default (fun heq => hnull ?_) htext
    rw [heq]
    rfl

/-- Constants that can be written are known by what is written for them. -/
theorem default_inj {f g : Field} (hf : f.Legible) (hg : g.Legible)
    (hfew : FewDigits f.options.default) (hfew' : FewDigits g.options.default)
    (h : f.defaultText? = g.defaultText?) : f.options.default = g.options.default := by
  have hequal := (bind_readDefault hf hfew).symm.trans
    ((congrArg (·.bind readDefault) h).trans (bind_readDefault hg hfew'))
  have hnull {v : Value} (hv : v.isNull = true) : v = .null := by
    cases v <;> first | rfl | cases hv
  split at hequal <;> split at hequal
  next hf' hg' => rw [hnull hf', hnull hg']
  next => cases hequal
  next => cases hequal
  next => exact Option.some.inj hequal

/-- **Fields with the same definition and the same comment agree**, if their defaults can be
written. -/
theorem Legible.agrees {f g : Field} (hf : f.Legible) (hg : g.Legible)
    (hfew : FewDigits f.options.default) (hfew' : FewDigits g.options.default)
    (h : f.columnText true = g.columnText true)
    (hcomment : f.options.comment.present? = g.options.comment.present?) : f.Agrees g := by
  obtain ⟨s, hs, -⟩ := hf.name
  obtain ⟨t, ht, -⟩ := hg.name
  have hreferences : f.options.references = g.options.references := by
    have hword {k : Field} (hk : k.Legible) : k.options.references = .null ∨
        ∃ r, k.options.references = .text r ∧ r ≠ "" :=
      hk.references.imp_right fun ⟨r, hr, hne, _⟩ => ⟨r, hr, hne⟩
    have hgiven : f.options.references.given? = g.options.references.given? :=
      congrArg ColumnText.references h
    rw [Value.given?_eq_present? (hword hf), Value.given?_eq_present? (hword hg)] at hgiven
    exact Value.present?_inj ((hword hf).imp_right fun ⟨r, hr, _⟩ => ⟨r, hr⟩)
      ((hword hg).imp_right fun ⟨r, hr, _⟩ => ⟨r, hr⟩) hgiven
  have haction {action : FieldOptions → Option ReferentialAction}
      (heq : f.referential? (action f.options) = g.referential? (action g.options))
      (href : f.options.references.isTrue = true) : action f.options = action g.options := by
    have href' := href
    rw [hreferences] at href'
    rwa [referential?, referential?, if_pos href, if_pos href'] at heq
  have hprimaryKey := congrArg ColumnText.primaryKey h
  refine
    { name := (Value.IsText.toText_inj ⟨s, hs⟩ ⟨t, ht⟩).1 (congrArg ColumnText.name h)
      type := ?_
      primaryKey := ?_
      isRequired := congrArg ColumnText.notNull h
      unique := congrArg ColumnText.unique h
      default := default_inj hf hg hfew hfew' (congrArg ColumnText.default h)
      references := hreferences
      onDelete := haction (congrArg ColumnText.onDelete h)
      onUpdate := haction (congrArg ColumnText.onUpdate h)
      generated := congrArg ColumnText.generated h
      comment := Value.present?_inj hf.comment hg.comment hcomment }
  · have htype : f.typeText = g.typeText := congrArg ColumnText.type h
    rw [hf.typeName_eq, hg.typeName_eq, htype]
  · simpa [Field.columnText] using hprimaryKey

end Field
end SchemaCompiler
