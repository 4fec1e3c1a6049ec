import Mathlib.Data.List.Basic
import Mathlib.Data.List.TakeWhile
import SchemaCompiler.Text.Line

/-!
# Readers

A text in a fixed format is read from left to right.  A reader takes something off the front of a
text and leaves the rest; what may be missing is told by the mark that it starts with.

* `Reader`, `Reader.after`, `Reader.optional` — readers, for what follows a mark, and for what may
  be missing;
* `written` — what such a part looks like, and `Begins`, what follows it;
* `upTo_append`, `enclosed_append` — words, and what stands before the end of a text;
* `optional_written` — **a part that may be missing is read back**, if what follows starts with
  another mark.
-/

namespace SchemaCompiler.Text

/-- A reader: what it takes off the front of a text, and what it leaves. -/
abbrev Reader (α : Type) : Type := List Char → Option (α × List Char)

namespace Reader

variable {α : Type}

/-- Takes nothing. -/
def nothing : Reader Unit := fun cs => some ((), cs)

/-- Takes everything up to a character. -/
def upTo (c : Char) : Reader String := fun cs =>
  some (String.ofList (cs.takeWhile (· ≠ c)), cs.dropWhile (· ≠ c))

/-- Takes what is left of a line. -/
def line : Reader String := upTo '\n'

/-- Takes everything, which has to end with a mark. -/
def enclosed (closing : String) : Reader String := fun cs =>
  (closing.toList.isSuffixOf? cs).map fun inside => (String.ofList inside, [])

/-- Takes one of several words, and tells what it stands for. -/
def oneOf (words : List (String × α)) : Reader α := fun cs =>
  words.findSome? fun w => (w.1.toList.isPrefixOf? cs).map fun rest => (w.2, rest)

/-- Takes a mark and what is read after it. -/
def after (mark : String) (r : Reader α) : Reader α := fun cs =>
  (mark.toList.isPrefixOf? cs).bind r

/-- What is read, if anything is; otherwise nothing is taken. -/
def optional {σ : Type} (r : σ → Option (α × σ)) (s : σ) : Option α × σ :=
  match r s with
  | some (a, rest) => (some a, rest)
  | none => (none, s)

end Reader

/-- A part that may be missing: a mark and what comes after it. -/
def written {α : Type} (mark : String) (print : α → String) : Option α → List Char
  | none => []
  | some a => mark.toList ++ (print a).toList

/-- A text that is empty or starts with one of some marks. -/
def Begins (marks : List String) (cs : List Char) : Prop :=
  cs = [] ∨ ∃ m ∈ marks, m.toList <+: cs

/-- Whether a mark can be told from others by what comes first. -/
def isApart (mark : String) (others : List String) : Bool :=
  mark != "" && others.all fun m =>
    !m.toList.isPrefixOf mark.toList && !mark.toList.isPrefixOf m.toList

section Reading

variable {α : Type} {mark : String} {marks : List String} {rest : List Char}

theorem isPrefixOf?_append (start rest : List Char) :
    start.isPrefixOf? (start ++ rest) = some rest :=
  List.isPrefixOf?_eq_some_iff_append_eq.2 rfl

theorem after_append (r : Reader α) (rest : List Char) :
    Reader.after mark r (mark.toList ++ rest) = r rest := by
  rw [Reader.after, isPrefixOf?_append, Option.bind_some]

theorem after_eq_none {cs : List Char} (h : ¬mark.toList <+: cs) (r : Reader α) :
    Reader.after mark r cs = none := by
  have hnone : mark.toList.isPrefixOf? cs = none := by
    rw [Option.eq_none_iff_forall_not_mem]
    intro rest hrest
    exact h ⟨rest, List.isPrefixOf?_eq_some_iff_append_eq.1 hrest⟩
  rw [Reader.after, hnone, Option.bind_none]

/-- A text that starts with a mark starts with the first character of this. -/
theorem head?_mark {c : Char} (h : mark.toList.head? = some c) (rest : List Char) :
    ∀ d, (mark.toList ++ rest).head? = some d → d = c := by
  intro d hd
  rw [List.head?_append, h] at hd
  exact (Option.some.inj hd).symm

theorem upTo_append {c : Char} {w : String} (hw : c ∉ w.toList)
    (hrest : ∀ d, rest.head? = some d → d = c) :
    Reader.upTo c (w.toList ++ rest) = some (w, rest) := by
  have hword : ∀ d ∈ w.toList, decide (d ≠ c) = true := by
    intro d hd
    refine decide_eq_true ?_
    rintro rfl
    exact hw hd
  have htake : rest.takeWhile (fun d => decide (d ≠ c)) = [] ∧
      rest.dropWhile (fun d => decide (d ≠ c)) = rest := by
    cases rest with
    | nil => exact ⟨rfl, rfl⟩
    | cons d rest =>
      rw [hrest d rfl]
      simp
  rw [Reader.upTo, List.takeWhile_append_of_pos hword, List.dropWhile_append_of_pos hword,
    htake.1, htake.2, List.append_nil, String.ofList_toList]

theorem enclosed_append (s closing : String) :
    Reader.enclosed closing (s.toList ++ closing.toList) = some (s, []) := by
  have hsuffix : closing.toList.isSuffixOf? (s.toList ++ closing.toList) = some s.toList :=
    List.isSuffixOf?_eq_some_iff_append_eq.2 rfl
  rw [Reader.enclosed, hsuffix, Option.map_some, String.ofList_toList]

/-- A text with another end is not read. -/
theorem enclosed_eq_none {closing other : String} (h : ¬closing.toList <:+ other.toList)
    (h' : ¬other.toList <:+ closing.toList) (s : String) :
    Reader.enclosed closing (s.toList ++ other.toList) = none := by
  have hnone : closing.toList.isSuffixOf? (s.toList ++ other.toList) = none := by
    rw [Option.eq_none_iff_forall_not_mem]
    intro inside hinside
    have hsuffix : closing.toList <:+ s.toList ++ other.toList :=
      ⟨inside, List.isSuffixOf?_eq_some_iff_append_eq.1 hinside⟩
    exact (List.suffix_or_suffix_of_suffix hsuffix (List.suffix_append _ _)).elim h h'
  rw [Reader.enclosed, hnone, Option.map_none]

/-- One of several words is read if none of them starts as another one does. -/
theorem oneOf_append {words : List (String × α)}
    (hapart : ∀ v ∈ words, ∀ w ∈ words, v.1.toList <+: w.1.toList → v = w) {w : String × α}
    (hw : w ∈ words) (rest : List Char) :
    Reader.oneOf words (w.1.toList ++ rest) = some (w.2, rest) := by
  have hread : ∀ v ∈ words, ∀ more,
      v.1.toList.isPrefixOf? (w.1.toList ++ rest) = some more → v = w := by
    intro v hv more hmore
    have hprefix : v.1.toList <+: w.1.toList ++ rest :=
      ⟨more, List.isPrefixOf?_eq_some_iff_append_eq.1 hmore⟩
    rcases List.prefix_or_prefix_of_prefix hprefix (List.prefix_append w.1.toList rest) with h | h
    · exact hapart v hv w hw h
    · exact (hapart w hw v hv h).symm
  have hsome : (Reader.oneOf words (w.1.toList ++ rest)).isSome := by
    rw [Reader.oneOf, List.findSome?_isSome_iff]
    exact ⟨w, hw, by rw [isPrefixOf?_append]; rfl⟩
  obtain ⟨r, hr⟩ := Option.isSome_iff_exists.1 hsome
  obtain ⟨v, hv, hvr⟩ := List.exists_of_findSome?_eq_some hr
  obtain ⟨more, hmore, rfl⟩ := Option.map_eq_some_iff.1 hvr
  obtain rfl := hread v hv more hmore
  rw [isPrefixOf?_append, Option.some.injEq] at hmore
  rw [hr, hmore]

/-! ### Parts that may be missing -/

theorem Begins.head? (h : Begins marks rest) {c : Char}
    (hmarks : (marks.all fun m => m.toList.head? == some c) = true) :
    ∀ d, rest.head? = some d → d = c := by
  rcases h with rfl | ⟨m, hm, more, rfl⟩
  · exact nofun
  · exact head?_mark (beq_iff_eq.1 (List.all_eq_true.1 hmarks m hm)) more

theorem Begins.of_start {m : String} (hm : m ∈ marks) (h : m.toList <+: rest) :
    Begins marks rest := Or.inr ⟨m, hm, h⟩

/-- What starts with other marks does not start with this one. -/
theorem Begins.not_start (h : Begins marks rest) (hapart : isApart mark marks = true) :
    ¬mark.toList <+: rest := by
  rw [isApart, Bool.and_eq_true, bne_iff_ne, List.all_eq_true] at hapart
  obtain ⟨hne, hothers⟩ := hapart
  intro hprefix
  rcases h with rfl | ⟨m, hm, hm'⟩
  · rw [List.prefix_nil, String.toList_eq_nil_iff] at hprefix
    exact hne hprefix
  · have happart := hothers m hm
    simp only [Bool.and_eq_true, Bool.not_eq_true', ← Bool.not_eq_true,
      List.isPrefixOf_iff_prefix] at happart
    exact (List.prefix_or_prefix_of_prefix hm' hprefix).elim happart.1 happart.2

/-- A part that is there starts with its mark. -/
theorem prefix_written (print : α → String) (a : α) (rest : List Char) :
    mark.toList <+: written mark print (some a) ++ rest := by
  rw [written, List.append_assoc]
  exact List.prefix_append _ _

theorem Begins.written (h : Begins marks rest) (print : α → String) (a : Option α) :
    Begins (mark :: marks) (Text.written mark print a ++ rest) := by
  cases a with
  | none =>
    rcases h with rfl | ⟨m, hm, hprefix⟩
    · exact Or.inl rfl
    · exact Or.inr ⟨m, List.mem_cons_of_mem mark hm, hprefix⟩
  | some a => exact .of_start List.mem_cons_self (prefix_written print a rest)

/-- A part has no characters but those of its mark and of its content. -/
theorem notMem_written {c : Char} (hmark : c ∉ mark.toList) {print : α → String} {a : Option α}
    (h : ∀ x, a = some x → c ∉ (print x).toList) : c ∉ written mark print a := by
  cases a with
  | none => exact List.not_mem_nil
  | some x => exact List.not_mem_append hmark (h x rfl)

/-- A part that is missing is not read. -/
theorem optional_of_begins (r : Reader α) (hrest : Begins marks rest)
    (hapart : isApart mark marks = true) :
    Reader.optional (Reader.after mark r) rest = (none, rest) := by
  rw [Reader.optional, after_eq_none (hrest.not_start hapart)]

/-- **A part that may be missing is read back**, if what follows starts with another mark. -/
theorem optional_written {r : Reader α} {print : α → String} {a : Option α}
    (hread : ∀ x, a = some x → r ((print x).toList ++ rest) = some (x, rest))
    (hrest : Begins marks rest) (hapart : isApart mark marks = true) :
    Reader.optional (Reader.after mark r) (written mark print a ++ rest) = (a, rest) := by
  cases a with
  | none => exact optional_of_begins r hrest hapart
  | some x =>
    rw [written, List.append_assoc, Reader.optional, after_append, hread x rfl]

end Reading
end SchemaCompiler.Text
