import SchemaCompiler.Json.Reader
import SchemaCompiler.Json.Writer
import SchemaCompiler.Proofs.Outcome

/-!
# Reading what was written as JSON

A list of texts that was written as JSON is read back as the same list, whatever characters the
texts have: each escape is read back as the character it was made for.

* `Json.hexUnit?_hexDigits` — four hexadecimal digits are read back as the number they write;
* `Json.readString_stringChar` — so is each character of a string;
* `Json.parse_writeTexts` — **a written list of texts is read back**.
-/

namespace SchemaCompiler.Json

open Text (hexDigits)

/-! ### Numbered escapes -/

theorem hexDigits_four {n : Nat} (h : n < 65536) :
    hexDigits 4 n = [Nat.digitChar (n / 4096), Nat.digitChar (n / 256 % 16),
      Nat.digitChar (n / 16 % 16), Nat.digitChar (n % 16)] := by
  have hdrop : ∀ m, 16 ≤ m → Nat.toDigits 16 m = Nat.toDigits 16 (m / 16) ++ [Nat.digitChar (m % 16)] :=
    fun m hm => Nat.toDigits_of_base_le (by decide) hm
  have hunit : ∀ m, m < 16 → Nat.toDigits 16 m = [Nat.digitChar m] :=
    fun m hm => Nat.toDigits_of_lt_base hm
  have h256 : n / 16 / 16 = n / 256 := Nat.div_div_eq_div_mul n 16 16
  have h4096 : n / 256 / 16 = n / 4096 := Nat.div_div_eq_div_mul n 256 16
  rw [hexDigits]
  by_cases h1 : n < 16
  · rw [hunit n h1, show n / 4096 = 0 by omega, show n / 256 % 16 = 0 by omega,
      show n / 16 % 16 = 0 by omega, Nat.mod_eq_of_lt h1]
    rfl
  by_cases h2 : n < 256
  · rw [hdrop n (by omega), hunit (n / 16) (by omega), show n / 4096 = 0 by omega,
      show n / 256 % 16 = 0 by omega, show n / 16 % 16 = n / 16 by omega]
    rfl
  by_cases h3 : n < 4096
  · rw [hdrop n (by omega), hdrop (n / 16) (by omega), h256, hunit (n / 256) (by omega),
      show n / 4096 = 0 by omega, show n / 256 % 16 = n / 256 by omega]
    rfl
  · rw [hdrop n (by omega), hdrop (n / 16) (by omega), h256, hdrop (n / 256) (by omega), h4096,
      hunit (n / 4096) (by omega)]
    rfl

theorem hexDigit?_digitChar {n : Nat} (h : n < 16) : hexDigit? (Nat.digitChar n) = some n := by
  have hall : ∀ n < 16, hexDigit? (Nat.digitChar n) = some n := by decide
  exact hall n h

/-- Four digits are read back, where a character follows them. -/
theorem hexUnit?_hexDigits {n : Nat} (h : n < 65536) {more : List Char} (hmore : more ≠ []) :
    hexUnit? (hexDigits 4 n ++ more) = some n := by
  obtain ⟨next, rest, rfl⟩ := List.exists_cons_of_ne_nil hmore
  rw [hexDigits_four h]
  show (do
    return (((← hexDigit? (Nat.digitChar (n / 4096))) * 16 +
      (← hexDigit? (Nat.digitChar (n / 256 % 16)))) * 16 +
      (← hexDigit? (Nat.digitChar (n / 16 % 16)))) * 16 +
      (← hexDigit? (Nat.digitChar (n % 16)))) = some n
  rw [hexDigit?_digitChar (show n / 4096 < 16 by omega),
    hexDigit?_digitChar (show n / 256 % 16 < 16 by omega),
    hexDigit?_digitChar (show n / 16 % 16 < 16 by omega),
    hexDigit?_digitChar (show n % 16 < 16 by omega)]
  show some (((n / 4096 * 16 + n / 256 % 16) * 16 + n / 16 % 16) * 16 + n % 16) = some n
  rw [Option.some.injEq]
  omega

theorem length_hexDigits_four {n : Nat} (h : n < 65536) : (hexDigits 4 n).length = 4 := by
  rw [hexDigits_four h]
  rfl

/-- A character is no half of a pair. -/
theorem toNat_notHalf (c : Char) : isHighHalf c.toNat = false ∧ isLowHalf c.toNat = false := by
  have hvalid : c.toNat < 0xD800 ∨ 0xDFFF < c.toNat ∧ c.toNat < 0x110000 := c.valid
  simp only [isHighHalf, isLowHalf, Bool.and_eq_false_iff, decide_eq_false_iff_not]
  omega

theorem readAlone_of_some {n : Nat} {c : Char} (h : charOfUnit? n = some c) :
    readAlone n = .ok (c, 4) := by
  rw [readAlone, h]

theorem readUnicodeEscape_unit {n : Nat} {c : Char} (h : n < 65536) (hhigh : isHighHalf n = false)
    (hchar : charOfUnit? n = some c) {more : List Char} (hmore : more ≠ []) (pos : Nat) :
    readUnicodeEscape ⟨hexDigits 4 n ++ more, pos⟩ = .ok (c, 4) := by
  have hunit := hexUnit?_hexDigits h hmore
  rw [readUnicodeEscape, ← readAlone_of_some hchar]
  simp only [hunit, hhigh, Bool.false_and]
  split <;> rfl

theorem readUnicodeEscape_pair {high low : Nat} (hhigh : isHighHalf high = true)
    (hlow : isLowHalf low = true) {more : List Char} (hmore : more ≠ []) (pos : Nat) :
    readUnicodeEscape ⟨hexDigits 4 high ++ '\\' :: 'u' :: (hexDigits 4 low ++ more), pos⟩ =
      .ok (charOfPair high low, 10) := by
  have hbounds : high < 65536 ∧ low < 65536 := by
    simp only [isHighHalf, isLowHalf, Bool.and_eq_true, decide_eq_true_eq] at hhigh hlow
    omega
  have hhighUnit : hexUnit? (hexDigits 4 high ++ '\\' :: 'u' :: (hexDigits 4 low ++ more)) =
      some high := hexUnit?_hexDigits hbounds.1 (by simp)
  have hlowUnit : hexUnit? (hexDigits 4 low ++ more) = some low :=
    hexUnit?_hexDigits hbounds.2 hmore
  have hdrop : (hexDigits 4 high ++ '\\' :: 'u' :: (hexDigits 4 low ++ more)).drop 4 =
      '\\' :: 'u' :: (hexDigits 4 low ++ more) :=
    List.drop_left' (length_hexDigits_four hbounds.1)
  have hlong : 4 < (hexDigits 4 low ++ more).length := by
    rw [List.length_append, length_hexDigits_four hbounds.2]
    exact Nat.lt_add_of_pos_right (List.length_pos_iff.2 hmore)
  rw [readUnicodeEscape]
  simp only [hhighUnit, hdrop, hhigh, hlong, hlowUnit, hlow, decide_true, Bool.and_self, if_true]

/-- A number beyond the basic plane is written as two halves, and is the sum of what they stand
for. -/
theorem halves {n : Nat} (h : 0x10000 ≤ n) (hlt : n < 0x110000) :
    isHighHalf (0xD800 + (n - 0x10000) / 0x400) = true ∧
    isLowHalf (0xDC00 + (n - 0x10000) % 0x400) = true ∧
    0x10000 + (0xD800 + (n - 0x10000) / 0x400 - 0xD800) * 0x400 +
      (0xDC00 + (n - 0x10000) % 0x400 - 0xDC00) = n := by
  simp only [isHighHalf, isLowHalf, Bool.and_eq_true, decide_eq_true_eq]
  omega

theorem toNat_lt (c : Char) : c.toNat < 0x110000 := by
  have hvalid : c.toNat < 0xD800 ∨ 0xDFFF < c.toNat ∧ c.toNat < 0x110000 := c.valid
  omega

/-- The two halves that a character beyond the basic plane is written as make up the character. -/
theorem charOfPair_halves {c : Char} (h : 0x10000 ≤ c.toNat) :
    charOfPair (0xD800 + (c.toNat - 0x10000) / 0x400) (0xDC00 + (c.toNat - 0x10000) % 0x400) = c
    := by
  rw [charOfPair, (halves h (toNat_lt c)).2.2]
  exact Char.ofNat_toNat c

theorem charEscape_basic {c : Char} (h : c.toNat < 0x10000) :
    charEscape c = '\\' :: 'u' :: hexDigits 4 c.toNat := by
  rw [charEscape]
  exact if_pos h

theorem charEscape_beyond {c : Char} (h : 0x10000 ≤ c.toNat) :
    charEscape c = unitEscape (0xD800 + (c.toNat - 0x10000) / 0x400) ++
      unitEscape (0xDC00 + (c.toNat - 0x10000) % 0x400) := by
  rw [charEscape]
  exact if_neg (Nat.not_lt.2 h)

/-- A character is written as one escape, or as two beyond the basic plane. -/
theorem charEscape_cases (c : Char) :
    (∃ n, n < 65536 ∧ charEscape c = '\\' :: 'u' :: hexDigits 4 n ∧ isHighHalf n = false ∧
      charOfUnit? n = some c) ∨
    ∃ high low, charEscape c = unitEscape high ++ unitEscape low ∧
      isHighHalf high = true ∧ isLowHalf low = true ∧ charOfPair high low = c := by
  rcases Nat.lt_or_ge c.toNat 0x10000 with hbasic | hbeyond
  · left
    refine ⟨c.toNat, hbasic, charEscape_basic hbasic, (toNat_notHalf c).1, ?_⟩
    rw [charOfUnit?, (toNat_notHalf c).1, (toNat_notHalf c).2]
    exact congrArg some (Char.ofNat_toNat c)
  · right
    have hhalves := halves hbeyond (toNat_lt c)
    exact ⟨_, _, charEscape_beyond hbeyond, hhalves.1, hhalves.2.1, charOfPair_halves hbeyond⟩

/-- What stands behind the `u` of the escape of a character is read back as the character. -/
theorem readUnicodeEscape_charEscape (c : Char) {more : List Char} (hmore : more ≠ []) (pos : Nat) :
    ∃ digits, charEscape c ++ more = '\\' :: 'u' :: digits ∧
      ∃ length, readUnicodeEscape ⟨digits, pos⟩ = .ok (c, length) ∧
        (charEscape c).length = 2 + length := by
  rcases charEscape_cases c with ⟨n, hn, htext, hhigh, hchar⟩ | ⟨high, low, htext, hhigh, hlow, hchar⟩
  · refine ⟨hexDigits 4 n ++ more, ?_, 4, ?_, ?_⟩
    · rw [htext, List.cons_append, List.cons_append]
    · exact readUnicodeEscape_unit hn hhigh hchar hmore pos
    · rw [htext, List.length_cons, List.length_cons, length_hexDigits_four hn]
  · have hbounds : high < 65536 ∧ low < 65536 := by
      simp only [isHighHalf, isLowHalf, Bool.and_eq_true, decide_eq_true_eq] at hhigh hlow
      omega
    refine ⟨hexDigits 4 high ++ '\\' :: 'u' :: (hexDigits 4 low ++ more), ?_, 10, ?_, ?_⟩
    · rw [htext, unitEscape, unitEscape, List.append_assoc, List.cons_append, List.cons_append,
        List.cons_append, List.cons_append]
    · rw [readUnicodeEscape_pair hhigh hlow hmore, hchar]
    · rw [htext, List.length_append, unitEscape, unitEscape, List.length_cons, List.length_cons,
        List.length_cons, List.length_cons, length_hexDigits_four hbounds.1,
        length_hexDigits_four hbounds.2]

/-! ### Strings -/

/-- A character that is neither a quote nor a backslash nor a control character stands for itself. -/
theorem readString_plain (start fuel : Nat) (before : List Char) {c : Char} (hquote : c ≠ '"')
    (hslash : c ≠ '\\') (hcontrol : ¬c.toNat < 32) (more : List Char) (pos : Nat) :
    readString start (fuel + 1) before ⟨c :: more, pos⟩ =
      readString start fuel (c :: before) ⟨more, pos + 1⟩ := by
  rw [readString]
  split
  next heq => exact absurd heq (List.cons_ne_nil _ _)
  next heq => exact absurd (List.cons.inj heq).1 hquote
  next heq => exact absurd (List.cons.inj heq).1 hslash
  next heq => exact absurd (List.cons.inj heq).1 hslash
  next heq => exact absurd (List.cons.inj heq).1 hslash
  next heq =>
    obtain ⟨rfl, -⟩ := List.cons.inj heq
    rw [if_neg hcontrol]
    rfl

/-- An escape by units stands for its character. -/
theorem readString_charEscape (start fuel : Nat) (before : List Char) (c : Char)
    {more : List Char} (hmore : more ≠ []) (pos : Nat) :
    readString start (fuel + 1) before ⟨charEscape c ++ more, pos⟩ =
      readString start fuel (c :: before) ⟨more, pos + (charEscape c).length⟩ := by
  obtain ⟨digits, htext, length, hread, hlength⟩ :=
    readUnicodeEscape_charEscape c hmore (pos + 2)
  have hdrop : digits.drop length = more := by
    have hback : (charEscape c ++ more).drop (2 + length) = more := List.drop_left' hlength
    rw [htext, ← List.drop_drop] at hback
    exact hback
  rw [htext, hlength]
  show (readUnicodeEscape ⟨digits, pos + 2⟩ >>= fun found =>
    readString start fuel (found.1 :: before)
      (Cursor.skip (2 + found.2) ⟨'\\' :: 'u' :: digits, pos⟩)) = _
  rw [hread]
  show readString start fuel (c :: before)
    ⟨('\\' :: 'u' :: digits).drop (2 + length), pos + (2 + length)⟩ = _
  rw [← List.drop_drop]
  show readString start fuel (c :: before) ⟨digits.drop length, pos + (2 + length)⟩ = _
  rw [hdrop]

/-- The reader takes one character of a string after the other, whatever it is. -/
theorem readString_stringChar (start fuel : Nat) (before : List Char) (c : Char) {more : List Char}
    (hmore : more ≠ []) (pos : Nat) :
    readString start (fuel + 1) before ⟨stringChar c ++ more, pos⟩ =
      readString start fuel (c :: before) ⟨more, pos + (stringChar c).length⟩ := by
  unfold stringChar
  split
  next hquoted =>
    rcases hquoted with rfl | rfl <;> rfl
  split
  next hc =>
    rw [hc]
    rfl
  split
  next hc =>
    rw [hc]
    rfl
  split
  next hc =>
    rw [hc]
    rfl
  split
  next hc =>
    rw [hc]
    rfl
  split
  next hc =>
    rw [hc]
    rfl
  split
  next hquoted _ _ _ _ _ hplain =>
    obtain ⟨hquote, hslash⟩ := not_or.1 hquoted
    have hcontrol : ¬c.toNat < 32 := by
      have hblank : ' '.toNat ≤ c.toNat := hplain.1
      exact Nat.not_lt.2 hblank
    exact readString_plain start fuel before hquote hslash hcontrol more pos
  next => exact readString_charEscape start fuel before c hmore pos

theorem stringChar_ne_nil (c : Char) : stringChar c ≠ [] := by
  unfold stringChar
  repeat' split
  all_goals try exact List.cons_ne_nil _ _
  rcases charEscape_cases c with ⟨n, -, htext, -⟩ | ⟨high, low, htext, -⟩
  · rw [htext]
    exact List.cons_ne_nil _ _
  · rw [htext]
    exact List.cons_ne_nil _ _

theorem length_le_flatMap (cs : List Char) : cs.length ≤ (cs.flatMap stringChar).length := by
  induction cs with
  | nil => exact Nat.le_refl 0
  | cons c cs ih =>
    have hpos := List.length_pos_iff.2 (stringChar_ne_nil c)
    rw [List.flatMap_cons, List.length_append, List.length_cons]
    omega

theorem readString_flatMap (start : Nat) (cs : List Char) {fuel : Nat} (h : cs.length < fuel)
    (before rest : List Char) (pos : Nat) :
    ∃ pos', readString start fuel before ⟨cs.flatMap stringChar ++ '"' :: rest, pos⟩ =
      .ok (before.reverse ++ cs, ⟨rest, pos'⟩) := by
  induction cs generalizing fuel before pos with
  | nil =>
    obtain ⟨f, rfl⟩ := Nat.exists_eq_add_of_le' h
    refine ⟨pos + 1, ?_⟩
    rw [List.append_nil]
    rfl
  | cons c cs ih =>
    obtain ⟨f, rfl⟩ := Nat.exists_eq_add_of_le' h
    obtain ⟨pos', hread⟩ := ih (show cs.length < f + cs.length + 1 by omega) (c :: before)
      (pos + (stringChar c).length)
    refine ⟨pos', ?_⟩
    rw [List.flatMap_cons, List.append_assoc]
    show readString start (f + cs.length + 1 + 1) before _ = _
    rw [readString_stringChar start _ before c (by simp), hread, List.reverse_cons,
      List.append_assoc]
    rfl

theorem toList_writeText (s : String) :
    (writeText s).toList = '"' :: (s.toList.flatMap stringChar ++ ['"']) := by
  rw [writeText, String.toList_ofList, List.cons_append]

/-- A string is read back, if the fuel is enough for its text. -/
theorem readValue_writeText (s : String) {fuel : Nat} (h : (writeText s).toList.length ≤ fuel)
    (rest : List Char) (pos : Nat) :
    ∃ pos', readValue fuel ⟨(writeText s).toList ++ rest, pos⟩ = .ok (.text s, ⟨rest, pos'⟩) := by
  have hlength := length_le_flatMap s.toList
  rw [toList_writeText, List.length_cons, List.length_append, List.length_singleton] at h
  obtain ⟨f, rfl⟩ := Nat.exists_eq_add_of_le' (show 1 ≤ fuel by omega)
  obtain ⟨pos', hread⟩ := readString_flatMap pos s.toList (show s.toList.length < f by omega) []
    rest (pos + 1)
  refine ⟨pos', ?_⟩
  rw [toList_writeText, List.cons_append, List.append_assoc]
  show (readString pos f [] ⟨s.toList.flatMap stringChar ++ '"' :: rest, pos + 1⟩ >>= fun found =>
    pure (Value.text (String.ofList found.1), found.2)) = _
  rw [hread]
  show Except.ok (Value.text (String.ofList s.toList), Cursor.mk rest pos') = _
  rw [String.ofList_toList]

/-! ### Lists -/

/-- What follows a text in a written list. -/
def following : List String → List Char
  | [] => ['\n', ']']
  | s :: rest => ',' :: '\n' :: ' ' :: ' ' :: ((writeText s).toList ++ following rest)

theorem toList_joinWith_append (s : String) (rest : List String) :
    (Text.joinWith ",\n" ((s :: rest).map fun s => "  " ++ writeText s)).toList ++ ['\n', ']'] =
      ' ' :: ' ' :: ((writeText s).toList ++ following rest) := by
  induction rest generalizing s with
  | nil =>
    show ("  " ++ writeText s).toList ++ ['\n', ']'] = _
    rw [String.toList_append]
    rfl
  | cons t rest ih =>
    show ("  " ++ writeText s ++ ",\n" ++
      Text.joinWith ",\n" ((t :: rest).map fun s => "  " ++ writeText s)).toList ++ ['\n', ']'] = _
    rw [String.toList_append, String.toList_append, String.toList_append, List.append_assoc, ih]
    simp [following]

theorem toList_writeTexts (s : String) (rest : List String) :
    (writeTexts (s :: rest)).toList =
      '[' :: '\n' :: ' ' :: ' ' :: ((writeText s).toList ++ following rest) := by
  rw [← toList_joinWith_append s rest]
  show ("[\n" ++ Text.joinWith ",\n" ((s :: rest).map fun s => "  " ++ writeText s) ++
    "\n]").toList = _
  rw [String.toList_append, String.toList_append, List.append_assoc]
  rfl

theorem skipSpace_writeText (s : String) (rest : List Char) (pos : Nat) :
    (Cursor.mk ('\n' :: ' ' :: ' ' :: ((writeText s).toList ++ rest)) pos).skipSpace =
      ⟨(writeText s).toList ++ rest, pos + 3⟩ := by
  rw [toList_writeText]
  rfl

/-- The items of a list are read one after the other, if the fuel is enough for their text. -/
theorem readItems_following (s : String) (rest : List String) {fuel : Nat}
    (h : ((writeText s).toList ++ following rest).length < fuel) (before : List Value)
    (more : List Char) (pos : Nat) :
    ∃ pos', readItems fuel before ⟨(writeText s).toList ++ (following rest ++ more), pos⟩ =
      .ok (.list (before.reverse ++ (s :: rest).map .text), ⟨more, pos'⟩) := by
  induction rest generalizing s fuel before pos with
  | nil =>
    obtain ⟨f, rfl⟩ := Nat.exists_eq_add_of_le' (show 1 ≤ fuel by omega)
    rw [List.length_append] at h
    obtain ⟨pos', hread⟩ := readValue_writeText s (show (writeText s).toList.length ≤ f by omega)
      (following [] ++ more) pos
    refine ⟨pos' + 1 + 1, ?_⟩
    rw [readItems, hread]
    show Except.ok (Value.list (Value.text s :: before).reverse, Cursor.mk more (pos' + 1 + 1)) = _
    rw [List.reverse_cons]
    rfl
  | cons t rest ih =>
    obtain ⟨f, rfl⟩ := Nat.exists_eq_add_of_le' (show 1 ≤ fuel by omega)
    rw [List.length_append] at h
    have hshorter : ((writeText t).toList ++ following rest).length + 4 =
        (following (t :: rest)).length := by
      rfl
    obtain ⟨pos', hread⟩ := readValue_writeText s (show (writeText s).toList.length ≤ f by omega)
      (following (t :: rest) ++ more) pos
    obtain ⟨last, hrest⟩ := ih t (show ((writeText t).toList ++ following rest).length < f by omega)
      (.text s :: before) (pos' + 1 + 3)
    refine ⟨last, ?_⟩
    rw [readItems, hread]
    show readItems f (.text s :: before) (Cursor.mk ('\n' :: ' ' :: ' ' ::
      ((writeText t).toList ++ following rest ++ more)) (pos' + 1)).skipSpace = _
    rw [List.append_assoc, skipSpace_writeText, hrest, List.reverse_cons, List.append_assoc]
    rfl

/-- A list that is not empty is read item by item. -/
theorem readValue_list {cs : List Char} {pos : Nat} {first : Cursor}
    (hfirst : (Cursor.mk cs (pos + 1)).skipSpace = first) (h : first.rest.head? ≠ some ']')
    (fuel : Nat) : readValue (fuel + 1) ⟨'[' :: cs, pos⟩ = readItems fuel [] first := by
  show (if (Cursor.mk cs (pos + 1)).skipSpace.rest.head? = some ']' then _
    else readItems fuel [] (Cursor.mk cs (pos + 1)).skipSpace) = _
  rw [hfirst, if_neg h]

/-- A text that is read as a list up to a last line feed is read as this list. -/
theorem parse_of_readValue {s : String} {cs : List Char} {value : Value} {pos : Nat}
    (hs : s.toList = '[' :: cs)
    (h : readValue (2 * s.toList.length + 2) ⟨'[' :: cs, 0⟩ = .ok (value, ⟨['\n'], pos⟩)) :
    parse s = .ok value := by
  rw [hs] at h
  have hstart : (Cursor.mk ('[' :: cs) 0).skipSpace = ⟨'[' :: cs, 0⟩ := rfl
  have hdocument : readDocument ('[' :: cs) = .ok value := by
    rw [readDocument, hstart, h]
    rfl
  unfold parse
  rw [hs]
  simp only [hdocument]
  rfl

/-- **A written list of texts is read back**, also with a line feed behind it. -/
theorem parse_writeTexts (texts : List String) :
    parse (writeTexts texts ++ "\n") = .ok (.list (texts.map .text)) := by
  cases texts with
  | nil => rfl
  | cons s rest =>
    have htext : (writeTexts (s :: rest) ++ "\n").toList =
        '[' :: '\n' :: ' ' :: ' ' :: ((writeText s).toList ++ (following rest ++ ['\n'])) := by
      rw [String.toList_append, toList_writeTexts]
      simp
    obtain ⟨fuel, hfuel⟩ : ∃ fuel,
        2 * (writeTexts (s :: rest) ++ "\n").toList.length + 2 = fuel + 1 := ⟨_, rfl⟩
    have henough : ((writeText s).toList ++ following rest).length < fuel := by
      rw [htext] at hfuel
      simp only [List.length_cons, List.length_append] at hfuel ⊢
      omega
    obtain ⟨pos, hread⟩ := readItems_following s rest henough [] ['\n'] 4
    have hquote : ((writeText s).toList ++ (following rest ++ ['\n'])).head? ≠ some ']' := by
      rw [toList_writeText, List.cons_append, List.head?_cons]
      decide
    apply parse_of_readValue htext
    rw [hfuel, readValue_list (skipSpace_writeText s _ 1) hquote, hread]
    rfl

end SchemaCompiler.Json
