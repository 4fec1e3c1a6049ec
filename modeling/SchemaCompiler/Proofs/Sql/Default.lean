import Mathlib.Data.Nat.Digits.Defs
import SchemaCompiler.Proofs.Outcome
import SchemaCompiler.Sql.Table

/-!
# Whole numbers and defaults that can be written

A whole number is written unless it has too many digits, and so is everything else that can be the
default of a column.

* `FewDigits` — a value is no whole number with too many digits;
* `wholeText_eq_ok`, `succeeds_defaultText` — **this is all that writing depends on**;
* `column_eq_ok` — how a column is written.
-/

namespace SchemaCompiler.Sql

/-- A value is no whole number that has too many digits to be written. -/
def FewDigits (v : Value) : Prop := ∀ n : Int, v = .int n → n.natAbs < 10 ^ Text.maxDigits

theorem fewDigits_int {n : Int} : FewDigits (.int n) ↔ n.natAbs < 10 ^ Text.maxDigits :=
  ⟨fun h => h n rfl, fun h _ heq => Value.int.inj heq ▸ h⟩

theorem length_toDigits_le_maxDigits (n : Nat) :
    (Nat.toDigits 10 n).length ≤ Text.maxDigits ↔ n < 10 ^ Text.maxDigits :=
  Nat.length_toDigits_le_iff (by decide) (by decide)

/-- A whole number is written in decimal digits, if these are not too many. -/
theorem wholeText_eq_ok {n : Int} {s : String} :
    wholeText n = .ok s ↔ n.natAbs < 10 ^ Text.maxDigits ∧ s = toString n := by
  rw [wholeText, ← length_toDigits_le_maxDigits]
  split
  next hfew => simp [hfew, eq_comm]
  next hmany => simp [hmany]

theorem succeeds_wholeText {n : Int} :
    Succeeds (wholeText n) ↔ n.natAbs < 10 ^ Text.maxDigits := by
  simp only [Succeeds, wholeText_eq_ok, exists_and_left, exists_eq, and_true]

theorem succeeds_defaultText {v : Value} : Succeeds (defaultText v) ↔ FewDigits v := by
  cases v with
  | int n => exact succeeds_wholeText.trans fewDigits_int.symm
  | _ => exact ⟨fun _ => nofun, fun _ => succeeds_ok _⟩

theorem defaultParts_eq_ok {v : Value} {parts : List String} :
    defaultParts v = .ok parts ↔
      v.isNull = true ∧ parts = [] ∨
        v.isNull = false ∧ ∃ text, defaultText v = .ok text ∧ parts = ["DEFAULT " ++ text] := by
  rw [defaultParts]
  split
  next hnull => simp [hnull, eq_comm]
  next hnull =>
    rw [map_eq_ok]
    simp [hnull, eq_comm]

theorem succeeds_defaultParts {v : Value} : Succeeds (defaultParts v) ↔ FewDigits v := by
  rw [← succeeds_defaultText, defaultParts]
  split
  next hnull =>
    obtain rfl : v = .null := by cases v <;> first | rfl | cases hnull
    exact iff_of_true (succeeds_ok []) (succeeds_ok _)
  next => exact succeeds_map

/-- A column is written with the name of its type and, if there is one, its default. -/
theorem column_eq_ok {f : Field} {markPrimaryKey : Bool} {text : String} :
    column f markPrimaryKey = .ok text ↔
      ∃ type default, typeName f.type = .ok type ∧
        defaultParts f.options.default = .ok default ∧
        text = Text.joinWith " " ((f.name.toText ++ " " ++ type.toText) ::
          constraintParts f.options markPrimaryKey default) := by
  simp only [column, bind_eq_ok, pure_eq_ok, Except.ok.injEq]
  constructor
  · rintro ⟨type, htype, default, hdefault, htext⟩
    exact ⟨type, default, htype, hdefault, htext.symm⟩
  · rintro ⟨type, default, htype, hdefault, htext⟩
    exact ⟨type, htype, default, hdefault, htext.symm⟩

theorem succeeds_column {f : Field} {markPrimaryKey : Bool} :
    Succeeds (column f markPrimaryKey) ↔
      Succeeds (typeName f.type) ∧ FewDigits f.options.default := by
  rw [← succeeds_defaultParts]
  exact succeeds_bind fun _ _ => succeeds_bind_pure

end SchemaCompiler.Sql
