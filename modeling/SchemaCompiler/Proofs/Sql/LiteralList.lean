import SchemaCompiler.Proofs.Migration.Compilation
import SchemaCompiler.Proofs.Sql.Composition
import SchemaCompiler.Proofs.Text.Reader
import SchemaCompiler.Proofs.Text.Splitting

/-!
# Reading literals back

The labels of an enum and the content types of a bucket are lists of literals.  A reader that knows
nothing of where they come from finds every text again, and the end of the list, whatever quotes,
commas and brackets the texts have in them.

* `readLiteral` — the text of a literal, in which two quotes are one;
* `readLiterals` — the texts of literals with a comma between any two;
* `readLiteral_textLiteral` — **a literal is read back**, and what follows it is left;
* `readLiterals_literalList` — **a list of literals is read back** up to what follows it;
* `readLiterals_written` — the lists of enums and of buckets are such lists.
-/

namespace SchemaCompiler.Sql

open Text (Reader joinWith)

/-! ### The reader -/

/-- Takes what is left of a literal after its opening quote.  Two quotes are one that belongs to the
text, and a quote that is followed by none is the last one. -/
def readQuoted : Reader (List Char)
  | [] => none
  | '\'' :: '\'' :: cs => (readQuoted cs).map fun r => ('\'' :: r.1, r.2)
  | '\'' :: cs => some ([], cs)
  | c :: cs => (readQuoted cs).map fun r => (c :: r.1, r.2)

/-- Takes a literal. -/
def readLiteral : Reader String
  | '\'' :: cs => (readQuoted cs).map fun r => (String.ofList r.1, r.2)
  | _ => none

theorem length_of_readQuoted {cs text rest : List Char} (h : readQuoted cs = some (text, rest)) :
    rest.length < cs.length := by
  fun_induction readQuoted cs generalizing text rest with
  | case1 => cases h
  | case2 cs ih =>
    obtain ⟨r, hr, heq⟩ := Option.map_eq_some_iff.1 h
    have hlength := ih hr
    rw [← (Prod.mk.inj heq).2, List.length_cons, List.length_cons]
    omega
  | case3 cs _ =>
    rw [← (Prod.mk.inj (Option.some.inj h)).2, List.length_cons]
    exact Nat.lt_succ_self _
  | case4 c cs _ _ ih =>
    obtain ⟨r, hr, heq⟩ := Option.map_eq_some_iff.1 h
    have hlength := ih hr
    rw [← (Prod.mk.inj heq).2, List.length_cons]
    omega

/-- A literal is not empty. -/
theorem length_of_readLiteral {cs rest : List Char} {s : String}
    (h : readLiteral cs = some (s, rest)) : rest.length < cs.length := by
  unfold readLiteral at h
  split at h
  next cs =>
    obtain ⟨r, hr, heq⟩ := Option.map_eq_some_iff.1 h
    have hlength := length_of_readQuoted hr
    rw [← (Prod.mk.inj heq).2, List.length_cons]
    omega
  next => cases h

/-- Takes literals, as long as there is a comma after each. -/
def readLiterals (cs : List Char) : Option (List String × List Char) :=
  match _ : readLiteral cs with
  | none => none
  | some (s, ',' :: rest) =>
    (readLiterals (rest.dropWhile (· == ' '))).map fun r => (s :: r.1, r.2)
  | some (s, rest) => some ([s], rest)
termination_by cs.length
decreasing_by
  rename_i h
  have hshorter := length_of_readLiteral h
  have hblanks := (List.dropWhile_suffix (l := rest) (· == ' ')).length_le
  rw [List.length_cons] at hshorter
  omega

/-! ### Literals -/

theorem readQuoted_doubleQuotes (cs : List Char) {rest : List Char}
    (h : rest.head? ≠ some '\'') :
    readQuoted (doubleQuotes cs ++ '\'' :: rest) = some (cs, rest) := by
  induction cs with
  | nil =>
    show readQuoted ('\'' :: rest) = _
    rw [readQuoted]
    rintro more rfl
    exact h rfl
  | cons c cs ih =>
    rw [doubleQuotes_cons]
    split
    next hc =>
      rw [List.cons_append, List.cons_append, readQuoted, ih, hc]
      rfl
    next hc =>
      rw [List.cons_append, readQuoted, ih]
      · rfl
      · rintro _ rfl
        exact absurd rfl hc
      · exact hc

/-- **A literal is read back**, and what follows it is left. -/
theorem readLiteral_textLiteral (s : String) {rest : List Char} (h : rest.head? ≠ some '\'') :
    readLiteral ((textLiteral s).toList ++ rest) = some (s, rest) := by
  rw [toList_textLiteral, List.cons_append, List.append_assoc, List.singleton_append, readLiteral,
    readQuoted_doubleQuotes _ h, Option.map_some, String.ofList_toList]

theorem textLiteral_injective : Function.Injective textLiteral := by
  intro s t hst
  have hend : ([] : List Char).head? ≠ some '\'' := by decide
  have hs := readLiteral_textLiteral s hend
  rw [hst, readLiteral_textLiteral t hend] at hs
  exact (Prod.mk.inj (Option.some.inj hs)).1.symm

/-! ### Lists -/

/-- Literals with a comma between any two. -/
def literalList (texts : List String) : String := joinWith ", " (texts.map textLiteral)

theorem map_literal (texts : List String) :
    (texts.map Value.text).map literal = texts.map textLiteral := by
  rw [List.map_map]
  rfl

/-- A text that goes on with neither a quote nor a comma. -/
def EndsList (rest : List Char) : Prop := rest.head? ≠ some '\'' ∧ rest.head? ≠ some ','

instance (rest : List Char) : Decidable (EndsList rest) := inferInstanceAs (Decidable (_ ∧ _))

/-- **A list of literals is read back**, and what follows it is left. -/
theorem readLiterals_literalList {texts : List String} (hne : texts ≠ []) {rest : List Char}
    (h : EndsList rest) :
    readLiterals ((literalList texts).toList ++ rest) = some (texts, rest) := by
  induction texts with
  | nil => exact absurd rfl hne
  | cons s texts ih =>
    cases texts with
    | nil =>
      have hone : (literalList [s]).toList ++ rest = (textLiteral s).toList ++ rest := rfl
      rw [hone, readLiterals, readLiteral_textLiteral s h.1]
      split
      next heq => cases heq
      next s' rest' heq =>
        rw [Option.some.injEq, Prod.mk.injEq] at heq
        exact absurd (by rw [heq.2]; rfl) h.2
      next s' rest' _ heq =>
        rw [Option.some.injEq, Prod.mk.injEq] at heq
        rw [heq.1, heq.2]
    | cons t texts =>
      have hmore : (literalList (s :: t :: texts)).toList ++ rest =
          (textLiteral s).toList ++ ',' :: ' ' :: ((literalList (t :: texts)).toList ++ rest) := by
        simp [literalList, joinWith]
      have hquote : ((literalList (t :: texts)).toList ++ rest).dropWhile (· == ' ') =
          (literalList (t :: texts)).toList ++ rest := by
        rw [literalList, List.map_cons, Text.toList_joinWith_cons, toList_textLiteral]
        rfl
      rw [hmore, readLiterals, readLiteral_textLiteral s (by simp)]
      show (readLiterals ((' ' :: _).dropWhile (· == ' '))).map _ = _
      rw [List.dropWhile_cons_of_pos rfl, hquote, ih (List.cons_ne_nil t texts)]
      rfl

/-! ### Enums and buckets -/

/-- The row of a bucket up to its content types. -/
def bucketFront (b : StorageBucket) (limit : String) : String :=
  "INSERT INTO storage.buckets (id, name, public, file_size_limit, allowed_mime_types)\n" ++
    "VALUES (" ++ literal b.name ++ ", " ++ literal b.name ++ ", " ++
    (if b.options.isPublic.isTrue then "true" else "false") ++ ", " ++ limit ++ ", "

/-- What follows the row of a bucket. -/
def bucketBack : String :=
  ")\n" ++
    "ON CONFLICT (id) DO UPDATE SET\n" ++
    "  name = EXCLUDED.name,\n" ++
    "  public = EXCLUDED.public,\n" ++
    "  file_size_limit = EXCLUDED.file_size_limit,\n" ++
    "  allowed_mime_types = EXCLUDED.allowed_mime_types;"

theorem createType_enum {t : CustomType} {texts : List String} (hkind : t.kind = some .enum)
    (hvalues : t.values = .list (texts.map .text)) : createType t =
      .ok ("CREATE TYPE " ++ t.name.toText ++ " AS ENUM (" ++ literalList texts ++ ");") := by
  have hitems : (Value.list (texts.map .text)).items = .ok (texts.map .text) := rfl
  unfold createType
  rw [hkind]
  dsimp only
  rw [hvalues, hitems, ok_bind, map_literal]
  rfl

theorem mimeTypes_list {texts : List String} (hne : texts ≠ []) :
    mimeTypes (.list (texts.map .text)) = .ok ("ARRAY[" ++ literalList texts ++ "]") := by
  have hgiven : (Value.list (texts.map .text)).isTrue = true := by
    cases texts with
    | nil => exact absurd rfl hne
    | cons s texts => rfl
  have hitems : (Value.list (texts.map .text)).items = .ok (texts.map .text) := rfl
  have hnull : (Value.list (texts.map .text)).isNull = false := rfl
  rw [mimeTypes, hnull, hgiven, hitems, ok_bind, map_literal]
  rfl

/-- The row of a bucket whose content types are known. -/
theorem upsertBucket_eq_ok {b : StorageBucket} {types : String}
    (htypes : mimeTypes b.options.mimeTypes = .ok types) {text : String}
    (h : (upsertBucket b).outcome = .ok text) :
    ∃ limit, (fileSizeLimit b.options.fileSizeLimit).outcome = .ok limit ∧
      text = bucketFront b limit ++ types ++ bucketBack := by
  simp only [upsertBucket, Traced.outcome_bind, Traced.outcome_lift, Traced.outcome_pure] at h
  obtain ⟨limit, hlimit, h⟩ := bind_eq_ok.1 h
  rw [htypes, ok_bind, Except.ok.injEq] at h
  refine ⟨limit, hlimit, ?_⟩
  rw [← h]
  unfold bucketFront bucketBack
  simp only [String.append_assoc]

/-- **Lists of literals read back.**  Take texts of any kind, at least one.  Where they are the
labels of an enum, its statement has a list between its parentheses that is read back to these
texts, up to the closing parenthesis.  Where they are the content types of a bucket, the statement
for this, which is made if the size limit can be read and written, has such a list between the
brackets of an array.

A literal alone is read back to its text wherever no quote follows it, so two texts never have the
same literal. -/
theorem readLiterals_written {texts : List String} (hne : texts ≠ []) :
    (∀ t : CustomType, t.kind = some .enum → t.values = .list (texts.map .text) →
      createType t =
        .ok ("CREATE TYPE " ++ t.name.toText ++ " AS ENUM (" ++ literalList texts ++ ");") ∧
      readLiterals (literalList texts ++ ");").toList = some (texts, ");".toList)) ∧
    (∀ b : StorageBucket, b.options.mimeTypes = .list (texts.map .text) →
      (Succeeds (upsertBucket b).outcome ↔
        Succeeds (FileSize.parse b.options.fileSizeLimit) ∧ FewDigits b.options.fileSizeLimit) ∧
      ∀ text, (upsertBucket b).outcome = .ok text →
        ∃ limit, (fileSizeLimit b.options.fileSizeLimit).outcome = .ok limit ∧
          text = bucketFront b limit ++ "ARRAY[" ++ literalList texts ++ "]" ++ bucketBack ∧
          readLiterals (literalList texts ++ "]" ++ bucketBack).toList =
            some (texts, ("]" ++ bucketBack).toList)) ∧
    (∀ (s : String) (rest : List Char), rest.head? ≠ some '\'' →
      readLiteral ((textLiteral s).toList ++ rest) = some (s, rest)) ∧
    Function.Injective textLiteral := by
  refine ⟨fun t hkind hvalues => ⟨createType_enum hkind hvalues, ?_⟩, fun b hb => ⟨?_, ?_⟩,
    fun s rest hrest => readLiteral_textLiteral s hrest, textLiteral_injective⟩
  · rw [String.toList_append]
    exact readLiterals_literalList hne (by decide)
  · refine succeeds_upsertBucket (Or.inr ⟨texts.map .text, ?_⟩)
    rw [hb]
    rfl
  · intro text htext
    obtain ⟨limit, hlimit, rfl⟩ := upsertBucket_eq_ok (hb ▸ mimeTypes_list hne) htext
    refine ⟨limit, hlimit, ?_, ?_⟩
    · simp only [String.append_assoc]
    · rw [String.append_assoc, String.toList_append]
      refine readLiterals_literalList hne ?_
      rw [String.toList_append]
      exact ⟨by decide, by decide⟩

/-- Labels that look like the end of a list, and an empty one. -/
def trickyLabels : List String := ["it's", "', '", "');", ""]

/-- An enum with these labels. -/
def trickyEnum : CustomType where
  name := .text "mood"
  kind := some .enum
  values := .list (trickyLabels.map .text)

/-- A bucket with these labels for its content types. -/
def trickyBucket : StorageBucket where
  name := .text "files"
  options := { mimeTypes := .list (trickyLabels.map .text) }

/-- They are read back from the statement for the enum, and from that for the bucket. -/
theorem readLiterals_trickyLabels : trickyLabels ≠ [] ∧
    createType trickyEnum = .ok ("CREATE TYPE mood AS ENUM (" ++ literalList trickyLabels ++ ");") ∧
    readLiterals (literalList trickyLabels ++ ");").toList = some (trickyLabels, ");".toList) ∧
    (∃ limit, (upsertBucket trickyBucket).outcome = .ok (bucketFront trickyBucket limit ++
      "ARRAY[" ++ literalList trickyLabels ++ "]" ++ bucketBack)) ∧
    readLiterals (literalList trickyLabels ++ "]" ++ bucketBack).toList =
      some (trickyLabels, ("]" ++ bucketBack).toList) := by
  have hne : trickyLabels ≠ [] := List.cons_ne_nil _ _
  have hlimit : Succeeds (FileSize.parse trickyBucket.options.fileSizeLimit) ∧
      FewDigits trickyBucket.options.fileSizeLimit := ⟨succeeds_ok none, nofun⟩
  obtain ⟨henum, hbucket, -, -⟩ := readLiterals_written hne
  obtain ⟨hmood, hlabels⟩ := henum trickyEnum rfl rfl
  obtain ⟨hmade, hrow⟩ := hbucket trickyBucket rfl
  obtain ⟨text, htext⟩ := hmade.2 hlimit
  obtain ⟨limit, -, rfl, htypes⟩ := hrow text htext
  exact ⟨hne, hmood, hlabels, ⟨limit, htext⟩, htypes⟩

end SchemaCompiler.Sql
