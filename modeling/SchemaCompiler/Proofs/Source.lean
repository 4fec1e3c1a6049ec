import SchemaCompiler.Proofs.Outcome
import SchemaCompiler.Source

/-!
# A definition as a source

A text that is no path is taken for JSON text, if it starts like an object or a list.  The text of
an object does, so that the one schema that it defines is loaded.

* `Json.head?_of_parse`, `Source.head?_of_definition` — how the text of an object starts;
* `Source.load_of_parse` — **the text of a definition is loaded as the schema that it defines**.
-/

namespace SchemaCompiler

namespace Json

/-! ### How the text of an object starts -/

theorem number_ne_mapping {n : NumberText} {entries : List (Value × Value)} :
    n.value ≠ .ok (.mapping entries) := by
  unfold NumberText.value
  intro h
  split at h
  next =>
    dsimp only at h
    split at h <;> cases h
  next => cases h

theorem readAtom_ne_mapping {c c' : Cursor} {entries : List (Value × Value)} :
    readAtom c ≠ .ok (.mapping entries, c') := by
  intro h
  unfold readAtom at h
  split at h
  next spelling value hfind =>
    obtain ⟨rfl, -⟩ := Prod.mk.inj (Except.ok.inj h)
    have hmem := List.mem_of_find?_eq_some hfind
    simp [constants] at hmem
  next =>
    split at h
    next n _ =>
      obtain ⟨value, hvalue, hpair⟩ := map_eq_ok.1 h
      obtain rfl := (Prod.mk.inj hpair).1
      exact number_ne_mapping hvalue
    next => exact nomatch h

/-- What is read as an object does not start like anything else. -/
theorem head?_of_readValue {fuel : Nat} {c c' : Cursor} {entries : List (Value × Value)}
    (h : readValue fuel c = .ok (.mapping entries, c')) :
    c.rest.head? = some '\x7b' ∨ c.rest.head? = some '[' := by
  cases fuel with
  | zero => exact nomatch h
  | succ fuel =>
    rw [readValue] at h
    split at h
    next =>
      cases hstring : readString c.position fuel [] (c.skip 1) with
      | error stop =>
        rw [hstring] at h
        exact nomatch h
      | ok found =>
        rw [hstring] at h
        exact nomatch h
    next heq =>
      left
      rw [heq]
      rfl
    next heq =>
      right
      rw [heq]
      rfl
    next => exact absurd h readAtom_ne_mapping

theorem head?_of_parse {s : String} {entries : List (Value × Value)}
    (h : parse s = .ok (.mapping entries)) :
    (s.toList.dropWhile isSpace).head? = some '\x7b' ∨
      (s.toList.dropWhile isSpace).head? = some '[' := by
  have hrest : (Cursor.mk s.toList 0).skipSpace.rest = s.toList.dropWhile isSpace := by
    have hdrop : (s.toList.takeWhile isSpace ++ s.toList.dropWhile isSpace).drop
        (s.toList.takeWhile isSpace).length = s.toList.dropWhile isSpace := List.drop_left
    rw [List.takeWhile_append_dropWhile] at hdrop
    exact hdrop
  rw [← hrest]
  unfold parse at h
  simp only at h
  split at h
  next => exact nomatch h
  next =>
    cases hdocument : readDocument s.toList with
    | error stop =>
      rw [hdocument] at h
      exact nomatch h
    | ok value =>
      rw [hdocument] at h
      cases h
      unfold readDocument at hdocument
      cases hvalue : readValue (2 * s.toList.length + 2) (Cursor.mk s.toList 0).skipSpace with
      | error stop =>
        rw [hvalue] at hdocument
        exact nomatch hdocument
      | ok found =>
        obtain ⟨value, c⟩ := found
        rw [hvalue] at hdocument
        have hlast : (if c.skipSpace.rest.isEmpty then (.ok value : Except Stop Value)
            else .error (.malformed .extraData c.skipSpace.position)) =
          .ok (.mapping entries) := hdocument
        split at hlast
        next =>
          cases hlast
          exact head?_of_readValue hvalue
        next => exact nomatch hlast

end Json

namespace Text

theorem stripWhere_prefix (p : Char → Bool) (cs : List Char) :
    stripWhere p cs <+: cs.dropWhile p := by
  rw [stripWhere, ← List.reverse_suffix, List.reverse_reverse]
  exact List.dropWhile_suffix p

/-- What is left of a text without the blanks at its ends starts with none. -/
theorem head?_stripWhere {p : Char → Bool} {cs : List Char} {c : Char}
    (h : (stripWhere p cs).head? = some c) : p c = false := by
  obtain ⟨rest, hrest⟩ := stripWhere_prefix p cs
  have hhead : (cs.dropWhile p).head? = some c := by
    rw [← hrest, List.head?_append, h]
    rfl
  have hnot := List.head?_dropWhile_not p cs
  rw [hhead] at hnot
  simpa using hnot

theorem isBlank_of_isSpace {c : Char} (h : Json.isSpace c = true) : isBlank c = true := by
  simp only [Json.isSpace, Bool.or_eq_true, beq_iff_eq] at h
  rcases h with ((rfl | rfl) | rfl) | rfl <;> rfl

end Text

namespace Source

theorem head?_of_parse_strip {text : String} {entries : List (Value × Value)}
    (h : Json.parse (Text.strip text) = .ok (.mapping entries)) :
    (Text.strip text).toList.head? = some '\x7b' ∨ (Text.strip text).toList.head? = some '[' := by
  have hstart := Json.head?_of_parse h
  have hsame : (Text.strip text).toList.dropWhile Json.isSpace = (Text.strip text).toList := by
    cases hcs : (Text.strip text).toList with
    | nil => rfl
    | cons c cs =>
      have hfirst : (Text.stripWhere Text.isBlank text.toList).head? = some c := by
        rw [Text.strip, String.toList_ofList] at hcs
        rw [hcs]
        rfl
      have hblank := Text.head?_stripWhere hfirst
      have hspace : ¬Json.isSpace c = true := by
        intro hspace
        rw [Text.isBlank_of_isSpace hspace] at hblank
        exact nomatch hblank
      rw [List.dropWhile_cons, if_neg hspace]
  rw [hsame] at hstart
  exact hstart

/-- The text of a definition starts with blanks, a brace or a bracket. -/
theorem head?_of_definition {text : String} {entries : List (Value × Value)}
    (h : Json.parse (Text.strip text) = .ok (.mapping entries)) {c : Char}
    (hc : text.toList.head? = some c) : Text.isBlank c = true ∨ c = '\x7b' ∨ c = '[' := by
  cases hblank : Text.isBlank c with
  | true => exact .inl rfl
  | false =>
    right
    obtain ⟨cs, hcs⟩ : ∃ cs, text.toList = c :: cs := by
      cases hlist : text.toList with
      | nil =>
        rw [hlist] at hc
        exact nomatch hc
      | cons d cs =>
        rw [hlist] at hc
        exact ⟨cs, by rw [Option.some.inj hc]⟩
    have hkept : text.toList.dropWhile Text.isBlank = text.toList := by
      rw [hcs, List.dropWhile_cons, hblank]
      rfl
    have hsame : ∀ d, (Text.strip text).toList.head? = some d → d = c := by
      intro d hd
      obtain ⟨rest, hrest⟩ := Text.stripWhere_prefix Text.isBlank text.toList
      rw [Text.strip, String.toList_ofList] at hd
      rw [hkept] at hrest
      rw [← hrest, List.head?_append, hd] at hc
      exact Option.some.inj hc
    rcases head?_of_parse_strip h with hhead | hhead
    · exact .inl (hsame _ hhead).symm
    · exact .inr (hsame _ hhead).symm

theorem head?_ne_dash {text : String} {entries : List (Value × Value)}
    (h : Json.parse (Text.strip text) = .ok (.mapping entries)) :
    text.toList.head? ≠ some '-' := by
  intro hdash
  rcases head?_of_definition h hdash with hblank | hbrace | hbracket
  · exact absurd hblank (by decide)
  · exact absurd hbrace (by decide)
  · exact absurd hbracket (by decide)

/-- **The text of a definition is loaded as the schema that it defines**, unless it is a path. -/
theorem load_of_parse {tree : FileTree} {text : String} {entries : List (Value × Value)}
    (h : Json.parse (Text.strip text) = .ok (.mapping entries))
    (hfree : tree.exists? text = false) :
    (load tree (.text text)).outcome = (do return [← Schema.ofValue (.mapping entries)]) := by
  have hfind : tree.find? text = none := by
    rw [FileTree.exists?] at hfree
    simpa using hfree
  have hdirectory : tree.isDirectory text = false := by rw [FileTree.isDirectory, hfind]
  have hfile : tree.isFile text = false := by rw [FileTree.isFile, hfind]
  have hread : readJson (Text.strip text) "JSON text" = .ok (.mapping entries) := by
    rw [readJson, h]
    rfl
  show (loadText tree text).outcome = _
  rw [loadText, hdirectory, hfile]
  rcases head?_of_parse_strip h with hhead | hhead
  · simp only [hhead, hread]
    rfl
  · simp only [hhead, hread]
    rfl

end Source
end SchemaCompiler
