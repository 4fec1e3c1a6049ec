import Mathlib.Data.List.Basic
import SchemaCompiler.Proofs.RowSecurity.Reconciliation
import SchemaCompiler.Proofs.Sql.Condition

/-!
# The scope of bucket policies

A policy of a storage bucket is about the files of this bucket: its condition is put after a
comparison of the bucket.  The condition stands there without parentheses, so the comparison binds
to its first alternative alone, and the others hold for the files of all buckets.

* `bucketCondition` — the condition of the files, and `createStoragePolicy_eq`, where it stands;
* `bucketIs` — the comparison of the bucket, as it is read;
* `Condition.scopedBy` — a condition whose first alternative is restricted by another one;
* `read_bucketCondition` — **what the condition of the files is read as**;
* `FileMeaning` — what the atoms of conditions mean on files;
* `createStoragePolicy_scope` — **which files a bucket policy is about**;
* `createStoragePolicy_unscoped` — a policy of one bucket that is about the files of another.
-/

namespace SchemaCompiler.RowSecurity

open Sql

/-! ### The condition on files -/

/-- The condition on files for a condition on the files of a bucket. -/
def bucketCondition (bucket condition : Value) : String :=
  "bucket_id = " ++ literal bucket ++ " AND " ++ condition.toText

/-- A bucket policy up to the condition on files. -/
def storagePolicyFront (bucket : Value) (p : Policy) : String :=
  "CREATE POLICY " ++ (storagePolicyName bucket p).toText ++ " ON " ++ storageObjects.toText ++
    "\n" ++ "  FOR " ++ actionKeyword p.action ++ roleClause p.options.roles ++ "\n" ++ "  USING "

/-- A bucket policy after the condition on files. -/
def storagePolicyBack (bucket : Value) (p : Policy) : String :=
  ";\n" ++ "COMMENT ON POLICY " ++ (storagePolicyName bucket p).toText ++ " ON " ++
    storageObjects.toText ++ " IS " ++ literal p.description ++ ";"

/-- The condition on files stands in parentheses. -/
theorem createStoragePolicy_eq (bucket : Value) (p : Policy) : createStoragePolicy bucket p =
    storagePolicyFront bucket p ++ ("(" ++ bucketCondition bucket p.condition ++ ")") ++
      storagePolicyBack bucket p := by
  have hopening : "  USING (bucket_id = " = "  USING " ++ ("(" ++ "bucket_id = ") := by simp
  have hclosing : ");\n" = ")" ++ ";\n" := by simp
  unfold createStoragePolicy storagePolicyFront storagePolicyBack bucketCondition
  rw [hopening, hclosing]
  simp only [String.append_assoc]

/-! ### How it is read -/

/-- The comparison of the bucket. -/
def bucketIs (name : String) : List Token :=
  [.word "bucket_id".toList, .symbol '=', .quoted .text name.toList]

/-- What stands before the condition of a policy. -/
def bucketPieces (name : String) : List Piece :=
  (bucketIs name).map .token ++ [.token (.word "AND".toList)]

/-- In a literal quotes are doubled, and everything else stands for itself. -/
theorem lex_doubleQuotes (before cs : List Char) : lex (.quoted .text before) (doubleQuotes cs) =
    some ([], .quoted .text (cs.reverse ++ before)) := by
  induction cs generalizing before with
  | nil => rfl
  | cons c cs ih =>
    have hfirst : lex (.quoted .text before) (if c = '\'' then ['\'', '\''] else [c]) =
        some ([], .quoted .text (c :: before)) := by
      by_cases hquote : c = '\''
      · subst hquote
        rfl
      · have hmark : c ≠ Quotation.text.mark := hquote
        rw [if_neg hquote, lex, lexStep, if_neg hmark]
        rfl
    rw [doubleQuotes, List.flatMap_cons, List.reverse_cons, List.append_assoc]
    exact lex_append_eq_some hfirst (ih (c :: before))

theorem lex_bucketIs (name : String) :
    lex .plain ("bucket_id = " ++ textLiteral name ++ " AND ").toList =
      some (bucketIs name ++ [.word "AND".toList], .plain) := by
  have hchars : ("bucket_id = " ++ textLiteral name ++ " AND ").toList =
      "bucket_id = '".toList ++ (doubleQuotes name.toList ++ "' AND ".toList) := by
    simp [textLiteral]
  have hopen : lex .plain "bucket_id = '".toList =
      some ([.word "bucket_id".toList, .symbol '='], .quoted .text []) := rfl
  have hclose : lex (.quoted .text name.toList.reverse) "' AND ".toList =
      some ([.quoted .text name.toList.reverse.reverse, .word "AND".toList], .plain) := rfl
  have hname : lex (.quoted .text []) (doubleQuotes name.toList) =
      some ([], .quoted .text name.toList.reverse) := by
    rw [lex_doubleQuotes, List.append_nil]
  rw [hchars, lex_append_eq_some hopen (lex_append_eq_some hname hclose), List.reverse_reverse]
  rfl

/-- The pieces of a condition stand after those of the comparison. -/
theorem pieces_bucketCondition {bucket condition : Value} {ps : List Piece}
    (h : pieces condition.toText.toList = some ps) :
    pieces (bucketCondition bucket condition).toList =
      some (bucketPieces bucket.toText ++ ps) := by
  obtain ⟨ts, hts, hnest⟩ := pieces_eq_some.1 h
  refine pieces_eq_some.2 ⟨bucketIs bucket.toText ++ [.word "AND".toList] ++ ts, ?_, ?_⟩
  · rw [bucketCondition, String.toList_append]
    exact tokens_append (lex_bucketIs bucket.toText) hts
  · rw [nest_append, hnest]
    rfl

/-- The comparison is one more condition of the first alternative. -/
theorem readConjunction_bucketPieces (name : String) {ps : List Piece} {c : Condition}
    (h : readConjunction ps = some c) :
    readConjunction (bucketPieces name ++ ps) = some (.and (.atom (bucketIs name)) c) := by
  obtain ⟨first, others, hfirst, hothers, rfl⟩ := readConjunction_eq_some.1 h
  have hatom : readOperand ((bucketIs name).map .token) = some (.atom (bucketIs name)) := rfl
  refine readConjunction_eq_some.2 ⟨_, first :: others, hatom, ?_, rfl⟩
  show ((splitAnd false ps).1 :: (splitAnd false ps).2).mapM readOperand = _
  rw [List.mapM_cons, hfirst, hothers]
  rfl

/-- **The comparison restricts the first alternative alone.** -/
theorem readPieces_bucketPieces {name : String} {ps : List Piece} {c : Condition}
    (h : readPieces ps = some c) :
    readPieces (bucketPieces name ++ ps) = some (c.scopedBy (.atom (bucketIs name))) := by
  obtain ⟨first, others, hfirst, hothers, rfl⟩ := readPieces_eq_some.1 h
  have hscoped := readConjunction_bucketPieces name hfirst
  refine readPieces_eq_some.2 ⟨_, others, hscoped, hothers, ?_⟩
  cases others with
  | nil => exact (Condition.scopedBy_of_later? (later?_readConjunction hfirst)).symm
  | cons d others => rfl

theorem read_bucketCondition {bucket condition : Value} {c : Condition}
    (h : read condition.toText = some c) : read (bucketCondition bucket condition) =
      some (c.scopedBy (.atom (bucketIs bucket.toText))) := by
  obtain ⟨ps, hps, -, hc⟩ := read_eq_some.1 h
  exact read_eq_some.2 ⟨_, pieces_bucketCondition hps, rfl, readPieces_bucketPieces hc⟩

/-! ### What it means -/

/-- What atoms mean on files: each file is in a bucket, and the comparison of the bucket says
whether it is the one with the name. -/
structure FileMeaning (File : Type) extends Meaning File where
  bucketOf : File → String
  atom_bucketIs : ∀ name file, atom (bucketIs name) file = some (bucketOf file == name)

/-- **Which files a bucket policy is about.**  Take a policy of a bucket whose condition can be read.
The text between its parentheses, which are closed where they seem to be, is read as the condition
with its first alternative restricted to the bucket.  On the files of the bucket it has the value of
the condition.  On all other files it has the value of the other alternatives, and is false if there
are none; so it is false on all other files exactly if those are. -/
theorem createStoragePolicy_scope (bucket : Value) {p : Policy} {c : Condition}
    (h : read p.condition.toText = some c) :
    createStoragePolicy bucket p = storagePolicyFront bucket p ++
      ("(" ++ bucketCondition bucket p.condition ++ ")") ++ storagePolicyBack bucket p ∧
    ∃ whole, read ("(" ++ bucketCondition bucket p.condition ++ ")") = some (.paren whole) ∧
      ∀ (File : Type) (m : FileMeaning File),
        (∀ file, m.bucketOf file = bucket.toText →
          whole.eval m.toMeaning file = c.eval m.toMeaning file) ∧
        (∀ file, m.bucketOf file ≠ bucket.toText → whole.eval m.toMeaning file =
          (c.later?.map fun d => d.eval m.toMeaning file).getD (some false)) ∧
        ((∀ file, m.bucketOf file ≠ bucket.toText → whole.eval m.toMeaning file = some false) ↔
          ∀ d, c.later? = some d → ∀ file, m.bucketOf file ≠ bucket.toText →
            d.eval m.toMeaning file = some false) := by
  refine ⟨createStoragePolicy_eq bucket p, c.scopedBy (.atom (bucketIs bucket.toText)),
    read_parenthesized (read_bucketCondition h), ?_⟩
  intro File m
  have hinside : ∀ file, m.bucketOf file = bucket.toText →
      (Condition.atom (bucketIs bucket.toText)).eval m.toMeaning file = some true := by
    intro file hfile
    rw [Condition.eval, m.atom_bucketIs, hfile, beq_self_eq_true]
  have houtside : ∀ file, m.bucketOf file ≠ bucket.toText →
      (Condition.atom (bucketIs bucket.toText)).eval m.toMeaning file = some false := by
    intro file hfile
    rw [Condition.eval, m.atom_bucketIs, beq_false_of_ne hfile]
  have hothers : ∀ file, m.bucketOf file ≠ bucket.toText →
      (c.scopedBy (.atom (bucketIs bucket.toText))).eval m.toMeaning file =
        (c.later?.map fun d => d.eval m.toMeaning file).getD (some false) :=
    fun file hfile => Condition.eval_scopedBy_false (houtside file hfile)
  refine ⟨fun file hfile => Condition.eval_scopedBy_true (hinside file hfile), hothers, ?_⟩
  cases hlater : c.later? with
  | none =>
    refine iff_of_true ?_ ?_
    · intro file hfile
      rw [hothers file hfile, hlater]
      rfl
    · intro d hd
      cases hd
  | some d =>
    constructor
    · intro hfalse d' hd' file hfile
      rw [← Option.some.inj hd', ← hfalse file hfile, hothers file hfile, hlater]
      rfl
    · intro hfalse file hfile
      rw [hothers file hfile, hlater]
      exact hfalse d rfl file hfile

/-- Files that are nothing but their buckets: the comparison of the bucket compares them, and every
other atom is true. -/
def permissive : FileMeaning String where
  atom ts file :=
    match ts with
    | [.word word, .symbol '=', .quoted .text name] =>
      some (word != "bucket_id".toList || file == String.ofList name)
    | _ => some true
  bucketOf file := file
  atom_bucketIs name file := by
    show some (_ != _ || file == String.ofList name.toList) = some (file == name)
    rw [String.ofList_toList, bne_self_eq_false, Bool.false_or]

/-- A policy for the files of their owners. -/
def ownedFiles : Policy := policyOf .select "Owners see their files" "owner = me() AND (a OR b)"

/-- It is about the files of its bucket alone. -/
theorem createStoragePolicy_ownedFiles : ∃ whole,
    read ("(" ++ bucketCondition (.text "avatars") ownedFiles.condition ++ ")") =
      some (.paren whole) ∧
    ∀ (File : Type) (m : FileMeaning File) (file : File), m.bucketOf file ≠ "avatars" →
      whole.eval m.toMeaning file = some false := by
  have hread : read ownedFiles.condition.toText = some (.and
      (.atom [.word "owner".toList, .symbol '=', .word "me".toList, .opening, .closing])
      (.paren (.or (.atom [.word "a".toList]) (.atom [.word "b".toList])))) := by
    decide +kernel
  obtain ⟨-, whole, hwhole, hscope⟩ := createStoragePolicy_scope (.text "avatars") hread
  exact ⟨whole, hwhole, fun File m file hfile => (hscope File m).2.1 file hfile⟩

/-- A policy for the files of their owners and for public ones. -/
def publicFiles : Policy := policyOf .select "Own and public files" "owner = me() OR is_public"

/-- **Its public files are those of all buckets**: a file of another bucket that is public meets the
condition on files of a policy for avatars. -/
theorem createStoragePolicy_unscoped : ∃ condition whole,
    read publicFiles.condition.toText = some condition ∧
    read ("(" ++ bucketCondition (.text "avatars") publicFiles.condition ++ ")") = some whole ∧
    permissive.bucketOf "private" ≠ "avatars" ∧
    whole.eval permissive.toMeaning "private" = some true := by
  refine ⟨.or (.atom [.word "owner".toList, .symbol '=', .word "me".toList, .opening, .closing])
      (.atom [.word "is_public".toList]),
    .paren (.or (.and (.atom (bucketIs "avatars"))
      (.atom [.word "owner".toList, .symbol '=', .word "me".toList, .opening, .closing]))
      (.atom [.word "is_public".toList])), ?_, ?_, ?_, ?_⟩
  · decide +kernel
  · decide +kernel
  · decide
  · rfl

end SchemaCompiler.RowSecurity
