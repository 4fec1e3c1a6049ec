import SchemaCompiler.CommandLine.Command

/-!
# Command lines that are written out

Of the many ways to write a command line, one is plain: the name of the command, its arguments, and
after them the options, in full, each with its value behind an equals sign.

* `Setting.word` — an option with its value, as one word;
* `Grammar.collect_settings` — what the arguments and options of a command give;
* `ofWords_settings` — **a command line that is written out asks for the command that it names, with
  the arguments and values that it gives**.
-/

namespace SchemaCompiler.CommandLine

/-- An option as it is written in full. -/
def Switch.long (switch : Switch) : String := switch.spellings.getLastD ""

/-- An option and the value that it is given. -/
structure Setting where
  switch : Switch
  value : String

/-- An option with its value, as one word. -/
def Setting.word (s : Setting) : String := s.switch.long ++ "=" ++ s.value

/-- The value that an option is given last. -/
def Setting.last? (settings : List Setting) (switch : Switch) : Option String :=
  ((settings.filter fun s => s.switch = switch).getLast?).map Setting.value

/-- A command has an option, and the option may have the value. -/
structure Grammar.Takes (g : Grammar) (s : Setting) : Prop where
  known : g.spellings.lookup s.switch.long = some s.switch
  takesValue : s.switch.takesValue = true
  offered : s.switch.choices = [] ∨ s.value ∈ s.switch.choices
  notSeparator : s.value ≠ "--"

namespace Setting

/-- The option of a setting, as it is written. -/
def written (s : Setting) : Written where
  switch := s.switch
  spelling := s.switch.long
  attached := some s.value.toList

/-- The token of a setting. -/
def token (s : Setting) : Token := .option s.word s.written

theorem toList_word (s : Setting) :
    s.word.toList = s.switch.long.toList ++ '=' :: s.value.toList := by
  simp [word]

/-- No option is spelled with an equals sign. -/
theorem sign_notMem (switch : Switch) : ∀ s ∈ switch.spellings, '=' ∉ s.toList := by
  cases switch <;> decide

theorem long_mem (switch : Switch) : switch.long ∈ switch.spellings := by
  cases switch <;> decide

theorem head?_word (s : Setting) : s.word.toList.head? = some '-' := by
  rw [toList_word]
  cases s.switch <;> rfl

theorem splitSign_word (s : Setting) :
    splitSign s.word.toList = (s.switch.long.toList, some s.value.toList) := by
  have hfront : ∀ c ∈ s.switch.long.toList, (c != '=') = true := by
    intro c hc
    have hsign := sign_notMem s.switch _ (long_mem s.switch)
    rw [bne_iff_ne]
    exact fun heq => hsign (heq ▸ hc)
  rw [splitSign, toList_word, List.dropWhile_append_of_pos hfront,
    List.takeWhile_append_of_pos hfront]
  simp

theorem word_ne (s : Setting) : s.word ≠ "--" := by
  intro h
  have hsign : '=' ∈ s.word.toList := by
    rw [toList_word]
    exact List.mem_append_right _ List.mem_cons_self
  rw [h] at hsign
  exact absurd hsign (by decide)

theorem length_word (s : Setting) : s.word.toList.length ≠ 1 := by
  rw [toList_word]
  cases s.switch <;> simp [Switch.long, Switch.spellings]

theorem value?_settings (settings : List Setting) (positionals : List (List String))
    (switch : Switch) :
    Findings.value? { switches := settings.map fun s => (s.switch, some s.value), positionals }
      switch = last? settings switch := by
  simp only [Findings.value?, last?, List.filter_map, List.getLast?_map, Function.comp_def]
  cases (settings.filter fun s => s.switch = switch).getLast? <;> rfl

end Setting

namespace Grammar

variable {g : Grammar}

/-- An option with a value at it is spelled like no option without one. -/
theorem lookup_word (g : Grammar) (s : Setting) : g.spellings.lookup s.word = none := by
  rw [List.lookup_eq_none_iff]
  intro entry hentry
  rw [spellings, List.mem_flatMap] at hentry
  obtain ⟨switch, -, hentry⟩ := hentry
  obtain ⟨spelling, hspelling, rfl⟩ := List.mem_map.1 hentry
  rw [bne_iff_ne]
  intro heq
  refine Setting.sign_notMem switch spelling hspelling ?_
  rw [← show s.word = spelling from heq, Setting.toList_word]
  exact List.mem_append_right _ List.mem_cons_self

/-- A command reads its settings. -/
theorem read_setting {s : Setting} (h : g.Takes s) : g.read s.word = .ok s.token := by
  simp only [read, Setting.splitSign_word, Setting.head?_word, lookup_word, Setting.length_word,
    String.ofList_toList, h.known, ne_eq, not_true_eq_false, if_false]
  rfl

/-- A word that does not start like an option is plain. -/
theorem read_plain {word : String} (h : word.toList.head? ≠ some '-') :
    g.read word = .ok (.plain word) := by
  simp only [read, ne_eq, h, not_false_eq_true, if_true]

theorem tokens_cons {word : String} {token : Token} {ts : List Token} {words : List String}
    (hword : word ≠ "--") (hread : g.read word = .ok token) (hwords : g.tokens words = .ok ts) :
    g.tokens (word :: words) = .ok (token :: ts) := by
  rw [tokens, if_neg hword, hread, hwords]
  rfl

theorem tokens_settings {settings : List Setting} (h : ∀ s ∈ settings, g.Takes s) :
    g.tokens (settings.map Setting.word) = .ok (settings.map Setting.token) := by
  induction settings with
  | nil => rfl
  | cons s settings ih =>
    have hrest := ih fun s' hs' => h s' (List.mem_cons_of_mem s hs')
    exact tokens_cons s.word_ne (read_setting (h s List.mem_cons_self)) hrest

theorem tokens_texts {texts words : List String} {ts : List Token}
    (h : ∀ text ∈ texts, text.toList.head? ≠ some '-') (hwords : g.tokens words = .ok ts) :
    g.tokens (texts ++ words) = .ok (texts.map .plain ++ ts) := by
  induction texts with
  | nil => exact hwords
  | cons text texts ih =>
    have hplain := h text List.mem_cons_self
    have hrest := ih fun text' htext' => h text' (List.mem_cons_of_mem text htext')
    refine tokens_cons ?_ (read_plain hplain) hrest
    rintro rfl
    exact hplain rfl

/-! ### Distribution -/

theorem take_text (name : String) {text : String} (htext : text ≠ "--") {rest : List Token}
    (hrest : ∀ t ∈ rest, t.isSeparator = false) :
    (Positional.word name).take (.plain text :: rest) = some ([text], rest) := by
  have htake : rest.takeWhile Token.isSeparator = [] := by
    cases rest with
    | nil => rfl
    | cons t rest =>
      rw [List.takeWhile_cons, hrest t List.mem_cons_self]
      rfl
  have hdrop : rest.dropWhile Token.isSeparator = rest := by
    cases rest with
    | nil => rfl
    | cons t rest =>
      rw [List.dropWhile_cons, hrest t List.mem_cons_self]
      rfl
  have herase : [text].erase "--" = [text] := List.erase_of_not_mem (by simpa using htext.symm)
  show some (((Token.plain text :: rest.takeWhile Token.isSeparator).map Token.word).erase "--",
    rest.dropWhile Token.isSeparator) = _
  rw [htake, hdrop]
  exact congrArg (fun words => some (words, rest)) herase

/-- Each argument gets one of the words at the front. -/
theorem takePositionals_texts {names texts : List String} (h : names.length = texts.length)
    (settings : List Setting) (htexts : ∀ text ∈ texts, text.toList.head? ≠ some '-') :
    takePositionals (names.map .word) (texts.map .plain ++ settings.map Setting.token) =
      ((names.zip texts).map fun p => (.word p.1, [p.2]), [], settings.map Setting.token) := by
  induction names generalizing texts with
  | nil =>
    cases texts with
    | nil => rfl
    | cons text texts => exact nomatch h
  | cons name names ih =>
    cases texts with
    | nil => exact nomatch h
    | cons text texts =>
      have htext : text ≠ "--" := by
        rintro rfl
        exact htexts _ List.mem_cons_self rfl
      have hrest : ∀ t ∈ texts.map Token.plain ++ settings.map Setting.token,
          t.isSeparator = false := by
        intro t ht
        rcases List.mem_append.1 ht with ht | ht
        · obtain ⟨_, -, rfl⟩ := List.mem_map.1 ht
          rfl
        · obtain ⟨_, -, rfl⟩ := List.mem_map.1 ht
          rfl
      have hmore := ih (Nat.succ.inj h) fun text' htext' =>
        htexts text' (List.mem_cons_of_mem text htext')
      show takePositionals (.word name :: names.map .word)
        (.plain text :: (texts.map Token.plain ++ settings.map Setting.token)) = _
      rw [takePositionals, take_text name htext hrest]
      simp only [hmore]
      rfl

theorem takeSwitch_setting {s : Setting} (h : g.Takes s) (following : List Token) :
    g.takeSwitch s.written following =
      .ok ({ switches := [(s.switch, some s.value)] }, following) := by
  have hvalue : attachedValue s.value.toList = some s.value := by
    have hne : ¬s.value.toList = ['-', '-'] := fun heq =>
      h.notSeparator (String.toList_injective heq)
    rw [attachedValue, if_neg hne, String.ofList_toList]
  show g.takeAttached following _ s.switch s.value.toList = _
  rw [takeAttached.eq_def]
  simp only [h.takesValue, if_true, hvalue]

theorem checkSwitches_setting {s : Setting} (h : g.Takes s) :
    g.checkSwitches [(s.switch, some s.value)] = .ok () := by
  have hoffered : (s.switch.choices.isEmpty || s.switch.choices.contains s.value) = true := by
    rcases h.offered with hnone | hmem
    · rw [hnone]
      rfl
    · rw [List.contains_iff_mem.2 hmem, Bool.or_true]
  have hhelp : s.switch ≠ .help := by
    intro heq
    have htakes := h.takesValue
    rw [heq] at htakes
    exact nomatch htakes
  rw [checkSwitches.eq_3 _ _ _ _ hhelp, if_pos hoffered]
  rfl

/-- Settings are taken one after the other. -/
theorem distribute_settings {settings : List Setting} (h : ∀ s ∈ settings, g.Takes s) {fuel : Nat}
    (hfuel : settings.length < fuel) :
    g.distribute fuel [] (settings.map Setting.token) =
      .ok ({ switches := settings.map fun s => (s.switch, some s.value) }, []) := by
  induction settings generalizing fuel with
  | nil =>
    cases fuel with
    | zero => exact nomatch hfuel
    | succ fuel => rfl
  | cons s settings ih =>
    cases fuel with
    | zero => exact nomatch hfuel
    | succ fuel =>
      have htakes := h s List.mem_cons_self
      have hrest := ih (fun s' hs' => h s' (List.mem_cons_of_mem s hs'))
        (Nat.lt_of_succ_lt_succ hfuel)
      show g.distribute (fuel + 1) [] (.option s.word s.written :: settings.map Setting.token) = _
      simp only [distribute, List.takeWhile_cons, List.dropWhile_cons, Token.isOption,
        List.isEmpty_nil, Bool.not_true, Bool.false_and, Bool.false_eq_true, if_false,
        takeSwitch_setting htakes]
      simp only [Bind.bind, Except.bind, checkSwitches_setting htakes, hrest]
      rfl

theorem checkPositionals_words (pairs : List (String × String)) :
    g.checkPositionals (pairs.map fun p => (.word p.1, [p.2])) = .ok () := by
  induction pairs with
  | nil => rfl
  | cons p pairs ih => exact ih

section Collect

variable {names texts : List String} {settings : List Setting}
variable (hlength : names.length = texts.length) (hsome : texts ≠ [])
variable (htexts : ∀ text ∈ texts, text.toList.head? ≠ some '-')
variable (hsettings : ∀ s ∈ settings, g.Takes s)
include hlength hsome htexts hsettings

/-- In the first round all arguments are served, and the settings are left for the rounds after
it. -/
theorem distribute_texts {fuel : Nat} (hfuel : settings.length < fuel) :
    g.distribute (fuel + 1) (names.map .word) (texts.map .plain ++ settings.map Setting.token) =
      .ok ({ switches := settings.map fun s => (s.switch, some s.value)
             positionals := texts.map fun text => [text] }, []) := by
  have hserved : ((names.zip texts).map fun p => (Positional.word p.1, [p.2])).map Prod.snd =
      texts.map fun text => [text] := by
    rw [List.map_map, show (Prod.snd ∘ fun p : String × String => (Positional.word p.1, [p.2])) =
      (fun text => [text]) ∘ Prod.snd from rfl, ← List.map_map,
      List.map_snd_zip (Nat.le_of_eq hlength.symm)]
  have hplain : ∀ t ∈ texts.map Token.plain, (!t.isOption) = true := by
    intro t ht
    obtain ⟨_, -, rfl⟩ := List.mem_map.1 ht
    rfl
  have hbefore : (texts.map Token.plain).isEmpty = false := by simpa using hsome
  rw [distribute]
  simp only [takePositionals_texts hlength settings htexts, List.takeWhile_append_of_pos hplain,
    List.dropWhile_append_of_pos hplain]
  cases settings with
  | nil =>
    simp only [List.map_nil, List.dropWhile_nil, Bind.bind, Except.bind, checkPositionals_words,
      hserved]
    rfl
  | cons s settings =>
    have hmore := distribute_settings hsettings hfuel
    have hshorter : (settings.map Setting.token).length + 1 <
        (texts.map Token.plain).length + ((settings.map Setting.token).length + 1) := by
      have hpos : 0 < texts.length := List.length_pos_iff.2 hsome
      simp only [List.length_map]
      omega
    simp only [List.map_cons, Setting.token, List.dropWhile_cons, List.takeWhile_cons,
      Token.isOption, Bool.not_true, Bool.false_eq_true, if_false, List.append_nil, hbefore,
      Bool.not_false, Bool.true_and, List.length_append, List.length_cons, hshorter, decide_true,
      if_true] at hmore ⊢
    simp only [Bind.bind, Except.bind, checkPositionals_words, hmore, hserved]
    simp only [Findings.append, List.nil_append, List.append_nil]
    rfl

/-- **What a command is given**: each argument its word, and each option its value. -/
theorem collect_settings (hpositionals : g.positionals = names.map .word) :
    g.collect (texts ++ settings.map Setting.word) =
      .ok { switches := settings.map fun s => (s.switch, some s.value)
            positionals := texts.map fun text => [text] } := by
  have htokens := tokens_texts htexts (tokens_settings hsettings)
  have hfuel : settings.length < (texts.map Token.plain ++ settings.map Setting.token).length := by
    have hpos : 0 < texts.length := List.length_pos_iff.2 hsome
    simp only [List.length_append, List.length_map]
    omega
  have hfound := distribute_texts hlength hsome htexts hsettings hfuel
  rw [collect, htokens, hpositionals]
  simp only [Bind.bind, Except.bind, hfound]
  rfl

end Collect

end Grammar

/-! ### The words of the program -/

/-- The program has no option of its own that takes a value, nor one that such an option could be
short for. -/
theorem lookup_program : ∀ switch : Switch, switch.takesValue = true →
    program.spellings.lookup switch.long = none ∧
      program.spellings.filter
        (fun s => switch.long.toList.isPrefixOf s.1.toList) = [] := by
  intro switch
  cases switch <;> decide

theorem candidates_setting {s : Setting} (h : s.switch.takesValue = true) :
    program.candidates s.word.toList = [] := by
  have hlong : s.word.toList.take 2 = ['-', '-'] := by
    rw [Setting.toList_word]
    cases hswitch : s.switch with
    | help =>
      rw [hswitch] at h
      exact nomatch h
    | verbose =>
      rw [hswitch] at h
      exact nomatch h
    | _ => rfl
  simp only [Grammar.candidates, Setting.splitSign_word, hlong, if_true,
    (lookup_program s.switch h).2, List.map_nil]

/-- To the program itself, an option of a command is just a word. -/
theorem exists_read_setting {s : Setting} (h : s.switch.takesValue = true) :
    ∃ token, program.read s.word = .ok token ∧ token.word = s.word := by
  simp only [Grammar.read, Setting.splitSign_word, Setting.head?_word, Grammar.lookup_word,
    Setting.length_word, String.ofList_toList, (lookup_program s.switch h).1, ne_eq,
    not_true_eq_false, if_false, candidates_setting h]
  by_cases hplain : (isNegativeNumber s.word.toList || s.word.toList.contains ' ') = true
  · exact ⟨.plain s.word, if_pos hplain, rfl⟩
  · exact ⟨.option s.word none, if_neg hplain, rfl⟩

theorem exists_tokens {words : List String} (hne : ∀ word ∈ words, word ≠ "--")
    (hread : ∀ word ∈ words, ∃ token, program.read word = .ok token ∧ token.word = word) :
    ∃ ts, program.tokens words = .ok ts ∧ ts.map Token.word = words := by
  induction words with
  | nil => exact ⟨[], rfl, rfl⟩
  | cons word words ih =>
    obtain ⟨token, htoken, hword⟩ := hread word List.mem_cons_self
    obtain ⟨ts, hts, hwords⟩ := ih (fun w hw => hne w (List.mem_cons_of_mem word hw)) fun w hw =>
      hread w (List.mem_cons_of_mem word hw)
    refine ⟨token :: ts, Grammar.tokens_cons (hne word List.mem_cons_self) htoken hts, ?_⟩
    rw [List.map_cons, hword, hwords]

/-- All words go to the command. -/
theorem collect_program (name : CommandName) {words : List String} {ts : List Token}
    (hts : program.tokens words = .ok ts) (hwords : ts.map Token.word = words) :
    program.collect (name.label :: words) = .ok { positionals := [name.label :: words] } := by
  have htokens : program.tokens (name.label :: words) = .ok (.plain name.label :: ts) := by
    refine Grammar.tokens_cons ?_ (Grammar.read_plain ?_) hts
    · cases name <;> decide
    · cases name <;> decide
  have hserved : takePositionals program.positionals (.plain name.label :: ts) =
      ([(.command "command" (CommandName.every.map CommandName.label), name.label :: words)], [],
        []) := by
    show ([(_, ((Token.plain name.label :: ts).map Token.word))], _, _) = _
    rw [List.map_cons, hwords]
    rfl
  have hchecked : program.checkPositionals
      [(.command "command" (CommandName.every.map CommandName.label), name.label :: words)] =
        .ok () := by
    cases name <;> rfl
  have hdistributed : program.distribute ((Token.plain name.label :: ts).length + 1)
      program.positionals (.plain name.label :: ts) =
        .ok ({ positionals := [name.label :: words] }, []) := by
    simp only [Grammar.distribute, hserved, List.dropWhile_cons, List.takeWhile_cons,
      Token.isOption, Bool.not_false, if_true, List.isEmpty_cons, Bool.true_and,
      List.length_cons, List.length_nil, Nat.zero_lt_succ, decide_true]
    simp only [Bind.bind, Except.bind, hchecked]
    split <;> rfl
  rw [Grammar.collect, htokens]
  simp only [Bind.bind, Except.bind, hdistributed]
  rfl

/-- **A command line that is written out asks for its command.**  After the name of a command stand
its arguments, none of which starts like an option, and after these any options of the command. -/
theorem ofWords_settings (name : CommandName) {names texts : List String} {settings : List Setting}
    (hpositionals : name.grammar.positionals = names.map .word)
    (hlength : names.length = texts.length) (hsome : texts ≠ [])
    (htexts : ∀ text ∈ texts, text.toList.head? ≠ some '-')
    (hsettings : ∀ s ∈ settings, name.grammar.Takes s) :
    Invocation.ofWords (name.label :: (texts ++ settings.map Setting.word)) =
      .ok { verbosity := 0
            command := name.command {
              switches := settings.map fun s => (s.switch, some s.value)
              positionals := texts.map fun text => [text] } } := by
  have hwords : ∀ word ∈ texts ++ settings.map Setting.word,
      word ≠ "--" ∧ ∃ token, program.read word = .ok token ∧ token.word = word := by
    intro word hword
    rcases List.mem_append.1 hword with htext | hsetting
    · have hplain := htexts word htext
      refine ⟨?_, .plain word, Grammar.read_plain hplain, rfl⟩
      rintro rfl
      exact hplain rfl
    · obtain ⟨s, hs, rfl⟩ := List.mem_map.1 hsetting
      exact ⟨s.word_ne, exists_read_setting (hsettings s hs).takesValue⟩
  obtain ⟨ts, hts, hsame⟩ := exists_tokens (fun word h => (hwords word h).1) fun word h =>
    (hwords word h).2
  have hlabel : CommandName.ofLabel? name.label = some name := by cases name <;> decide
  rw [Invocation.ofWords, collect_program name hts hsame]
  simp only [Bind.bind, Except.bind, hlabel,
    Grammar.collect_settings hlength hsome htexts hsettings hpositionals]
  rfl

end SchemaCompiler.CommandLine
