import SchemaCompiler.Proofs.Outcome
import SchemaCompiler.Proofs.Value.Equality
import SchemaCompiler.Schema.Basic

/-!
# Names without repetition

What the checks of a whole table and of a whole schema come to.

* `Table.checked_eq_ok_iff`, `Schema.checked_eq_ok_iff` — **what is accepted**: names that can be
  keys, no two of them the same;
* `Schema.checked_eq_error_iff` — which schemas are refused for a name that is repeated;
* `Schema.fault_of_checked` — what else can be wrong is a name that cannot be a key.
-/

namespace SchemaCompiler

open Value

/-- Names that have been read are searched for a repeated one. -/
theorem checkDistinct_names {α : Type} (duplicate : Value → Fault) (name : α → Value)
    (items : List α) :
    checkDistinct duplicate [] (items.map fun x => .ok (name x)) = .ok () ↔
      (∀ x ∈ items, (name x).isHashable = true) ∧ Different (items.map name) := by
  have hnames : (items.map fun x => .ok (name x)) =
      (items.map name).map (Except.ok (ε := Fault)) := by
    rw [List.map_map]
    rfl
  rw [hnames, checkDistinct_eq_ok_iff, List.forall_mem_map]
  simp [Different]

/-- A check that gives no result of its own. -/
theorem check_eq_ok {α : Type} {check : Except Fault Unit} {a b : α} :
    (check >>= fun _ => pure a) = .ok b ↔ check = .ok () ∧ a = b := by
  cases check with
  | ok _ => simp [ok_bind, pure_eq_ok]
  | error fault => simp [Bind.bind, Except.bind]

theorem check_eq_error {α : Type} {check : Except Fault Unit} {a : α} {fault : Fault} :
    (check >>= fun _ => pure a) = .error fault ↔ check = .error fault := by
  cases check with
  | ok _ => simp [ok_bind, pure_eq_ok]
  | error fault => simp [Bind.bind, Except.bind]

theorem Table.checked_eq_ok_iff {t kept : Table} : t.checked = .ok kept ↔
    (∀ f ∈ t.fields, f.name.isHashable = true) ∧ Different (t.fields.map Field.name) ∧
      kept = t := by
  rw [checked, check_eq_ok, checkFields, checkDistinct_names, and_assoc, @eq_comm _ t kept]

theorem Schema.checked_eq_ok_iff {s built : Schema} : s.checked = .ok built ↔
    (∀ t ∈ s.tables, t.name.isHashable = true) ∧ Different (s.tables.map Table.name) ∧
      built = s := by
  rw [checked, check_eq_ok, checkTables, checkDistinct_names, and_assoc, @eq_comm _ s built]

theorem Schema.checked_eq_error_iff {s : Schema} :
    (∃ cause, s.checked = .error (.schema cause)) ↔ Repeats (s.tables.map Table.name) := by
  have hnames : (s.tables.map fun t => .ok t.name) =
      (s.tables.map Table.name).map (Except.ok (ε := Fault)) := by
    rw [List.map_map]
    rfl
  simp only [checked, check_eq_error, checkTables, hnames, checkDistinct_eq_error_iff,
    List.nil_append]
  rfl

theorem Schema.fault_of_checked {s : Schema} {fault : Fault} (h : s.checked = .error fault) :
    (∃ cause, fault = .schema cause) ∨ fault = .misuse .wrongType := by
  have hcheck := check_eq_error.1 h
  rcases fault_of_checkDistinct hcheck with hname | ⟨v, rfl⟩ | hkey
  · obtain ⟨t, -, ht⟩ := List.mem_map.1 hname
    exact nomatch ht
  · exact Or.inl ⟨_, rfl⟩
  · exact Or.inr hkey

end SchemaCompiler
