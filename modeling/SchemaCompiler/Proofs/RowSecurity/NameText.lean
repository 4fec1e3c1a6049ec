import SchemaCompiler.Proofs.Text.Words
import SchemaCompiler.RowSecurity.Name

/-!
# What names of policies tell

A policy without a name of its own is named after its table, its action and what its description
starts with.  Such a name is plain text, whatever the description says, and the action and the words
can be told from it; the name of a policy of a bucket tells the bucket and the action.

* `NameWords`, `nameWords_take` — the words of a description that go into a name;
* `derivedName_text_inj` — what can be told from the name of a policy of a table;
* `storagePolicyName_inj` — what can be told from the name of a policy of a bucket;
* `names_eq_iff` — **two policies get one name only if they must**.
-/

namespace SchemaCompiler.RowSecurity

open Text (joinWith splitAt WordsOf)

/-- A description in lower case, without what is neither a letter `a` to `z`, nor a digit, nor
blank. -/
def plainText (description : String) : List Char :=
  (Text.lower description).toList.filter fun c => isNameChar c || Text.isBlank c

theorem descriptionWords_eq_iff {description : String} {ws : List (List Char)} :
    descriptionWords description = ws ↔ WordsOf (plainText description) ws :=
  Text.words_eq_iff

/-- At most three words of letters `a` to `z` and digits. -/
structure NameWords (ws : List (List Char)) : Prop where
  length_le : ws.length ≤ 3
  ne_nil : ∀ w ∈ ws, w ≠ []
  chars : ∀ w ∈ ws, ∀ c ∈ w, isNameChar c = true

/-- The words of a text have the characters of the text that are not blank. -/
theorem mem_of_wordsOf {cs : List Char} {ws : List (List Char)} (h : WordsOf cs ws) :
    ∀ w ∈ ws, w ≠ [] ∧ ∀ c ∈ w, c ∈ cs ∧ Text.isBlank c = false := by
  induction h with
  | nil hgap => exact nofun
  | @cons gap word rest words hgap hne hword hend hrest ih =>
    refine List.forall_mem_cons.2 ⟨⟨hne, fun c hc => ⟨?_, hword c hc⟩⟩, fun w hw => ?_⟩
    · exact List.mem_append_right gap (List.mem_append_left rest hc)
    · refine ⟨(ih w hw).1, fun c hc => ⟨?_, ((ih w hw).2 c hc).2⟩⟩
      exact List.mem_append_right gap (List.mem_append_right word ((ih w hw).2 c hc).1)

theorem nameWords_take {description : String} {ws : List (List Char)}
    (h : WordsOf (plainText description) ws) : NameWords (ws.take 3) := by
  have hmem := mem_of_wordsOf h
  refine ⟨List.length_take_le 3 ws, fun w hw => (hmem w (List.mem_of_mem_take hw)).1,
    fun w hw c hc => ?_⟩
  obtain ⟨htext, hblank⟩ := (hmem w (List.mem_of_mem_take hw)).2 c hc
  have hchar := (List.mem_filter.1 htext).2
  rwa [hblank, Bool.or_false] at hchar

/-! ### What can be told from a name -/

theorem label_injective {a b : PolicyAction} (h : Vocabulary.label a = Vocabulary.label b) :
    a = b := by
  cases a <;> cases b <;> first | rfl | exact absurd h (by decide)

theorem lowLine_notMem_label (a : PolicyAction) : '_' ∉ (Vocabulary.label a).toList := by
  cases a <;> decide

/-- What stands before an action and what stands after it, each after a low line. -/
theorem labelled_inj {front front' back back' : String} {a b : PolicyAction}
    (hback : (splitAt '_' back.toList).length = (splitAt '_' back'.toList).length ∨
      front = front') :
    front ++ "_" ++ Vocabulary.label a ++ "_" ++ back =
        front' ++ "_" ++ Vocabulary.label b ++ "_" ++ back' ↔
      front = front' ∧ a = b ∧ back = back' := by
  have hpieces (front back : String) (a : PolicyAction) :
      splitAt '_' (front ++ "_" ++ Vocabulary.label a ++ "_" ++ back).toList =
        splitAt '_' front.toList ++ (Vocabulary.label a).toList :: splitAt '_' back.toList := by
    simp only [String.toList_append, List.append_assoc]
    show splitAt '_' (front.toList ++ '_' :: ((Vocabulary.label a).toList ++ '_' :: back.toList)) = _
    rw [Text.splitAt_append_mark, Text.splitAt_cons (lowLine_notMem_label a)]
  constructor
  · intro heq
    have hsplit := congrArg (fun s : String => splitAt '_' s.toList) heq
    rw [hpieces, hpieces] at hsplit
    obtain ⟨hfront, htail⟩ : splitAt '_' front.toList = splitAt '_' front'.toList ∧ _ := by
      rcases hback with hlength | rfl
      · exact List.append_inj' hsplit (by rw [List.length_cons, List.length_cons, hlength])
      · exact ⟨rfl, List.append_cancel_left hsplit⟩
    obtain ⟨hlabel, htail⟩ := List.cons.inj htail
    exact ⟨String.toList_inj.1 (Text.splitAt_injective '_' hfront),
      label_injective (String.toList_inj.1 hlabel),
      String.toList_inj.1 (Text.splitAt_injective '_' htail)⟩
  · rintro ⟨rfl, rfl, rfl⟩
    rfl

theorem derivedName_text_inj (table : String) {a b : PolicyAction} {d e : String}
    {ws vs : List (List Char)} (hws : WordsOf (plainText d) ws) (hvs : WordsOf (plainText e) vs) :
    derivedName (.text table) a (.text d) = derivedName (.text table) b (.text e) ↔
      a = b ∧ ws.take 3 = vs.take 3 := by
  have hword {description : String} {ws : List (List Char)}
      (h : WordsOf (plainText description) ws) :
      ∀ s ∈ (ws.take 3).map String.ofList, s ≠ "" ∧ '_' ∉ s.toList := by
    intro s hs
    obtain ⟨w, hw, rfl⟩ := List.mem_map.1 hs
    have hname := nameWords_take h
    refine ⟨fun hempty => hname.ne_nil w hw ?_, fun hline => ?_⟩
    · rw [← String.toList_ofList (l := w), hempty]
      rfl
    · rw [String.toList_ofList] at hline
      exact absurd (hname.chars w hw '_' hline) (by decide)
  obtain rfl := descriptionWords_eq_iff.2 hws
  obtain rfl := descriptionWords_eq_iff.2 hvs
  show Except.ok _ = Except.ok _ ↔ _
  rw [Except.ok.injEq, labelled_inj (Or.inr rfl), and_iff_right rfl,
    Text.joinWith_inj (rfl : "_".toList = ['_']) (hword hws) (hword hvs),
    List.map_inj_right fun _ _ h => by simpa using congrArg String.toList h]

theorem storagePolicyName_inj {bucket bucket' : String} {p q : Policy}
    (hp : p.options.name.isTrue = false) (hq : q.options.name.isTrue = false) :
    storagePolicyName (.text bucket) p = storagePolicyName (.text bucket') q ↔
      bucket = bucket' ∧ p.action = q.action := by
  have hname (bucket : String) {p : Policy} (hp : p.options.name.isTrue = false) :
      storagePolicyName (.text bucket) p =
        .text (bucket ++ "_" ++ Vocabulary.label p.action ++ "_" ++ "policy") := by
    have hend : "_policy" = "_" ++ "policy" := by decide
    rw [storagePolicyName, hp, if_neg Bool.false_ne_true, hend, ← String.append_assoc]
    rfl
  rw [hname bucket hp, hname bucket' hq, Value.text.injEq, labelled_inj (Or.inl rfl),
    and_iff_left rfl]

/-- **Names of policies that are not given.**  The name of a policy of a table is that of the table,
the action and at most three words, whatever the description says, and two policies of the table get
one name exactly if they have the same action and the same first three words.  Two policies of
buckets get one name exactly if they have the same bucket and the same action. -/
theorem names_eq_iff (table : String) (a b : PolicyAction) (d e : String) (bucket bucket' : String)
    (p q : Policy) (hp : p.options.name.isTrue = false) (hq : q.options.name.isTrue = false) :
    (∃ ws vs, WordsOf (plainText d) ws ∧ WordsOf (plainText e) vs ∧
      NameWords (ws.take 3) ∧
      derivedName (.text table) a (.text d) = .ok (table ++ "_" ++ Vocabulary.label a ++ "_" ++
        joinWith "_" ((ws.take 3).map String.ofList)) ∧
      (derivedName (.text table) a (.text d) = derivedName (.text table) b (.text e) ↔
        a = b ∧ ws.take 3 = vs.take 3)) ∧
    (storagePolicyName (.text bucket) p = storagePolicyName (.text bucket') q ↔
      bucket = bucket' ∧ p.action = q.action) := by
  have hws := descriptionWords_eq_iff.1 (rfl : descriptionWords d = descriptionWords d)
  have hvs := descriptionWords_eq_iff.1 (rfl : descriptionWords e = descriptionWords e)
  exact ⟨⟨descriptionWords d, descriptionWords e, hws, hvs, nameWords_take hws, rfl,
    derivedName_text_inj table hws hvs⟩, storagePolicyName_inj hp hq⟩

/-- A policy for reading files that has no name of its own. -/
def readFiles : Policy where
  action := .select
  description := .text "Read"
  condition := .text "true"
  options := {}

/-- Descriptions that start with the same words give one name, and so do not two buckets. -/
theorem names_readFiles : readFiles.options.name.isTrue = false ∧
    derivedName (.text "notes") .select (.text "Read own notes") =
      derivedName (.text "notes") .select (.text "READ own, notes: when shared") ∧
    storagePolicyName (.text "avatars") readFiles ≠ storagePolicyName (.text "files") readFiles := by
  have hunnamed : readFiles.options.name.isTrue = false := rfl
  obtain ⟨⟨ws, vs, hws, hvs, -, -, htable⟩, hbucket⟩ :=
    names_eq_iff "notes" .select .select "Read own notes" "READ own, notes: when shared" "avatars"
      "files" readFiles readFiles hunnamed hunnamed
  refine ⟨hunnamed, htable.2 ⟨rfl, ?_⟩, fun heq => absurd (hbucket.1 heq).1 (by decide)⟩
  rw [← descriptionWords_eq_iff.2 hws, ← descriptionWords_eq_iff.2 hvs]
  decide +kernel

end SchemaCompiler.RowSecurity
