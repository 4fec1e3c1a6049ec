import Mathlib.Data.String.Basic
import SchemaCompiler.Proofs.Migration.Creation
import SchemaCompiler.Proofs.Migration.Header

/-!
# The instant of a migration

A migration is made at an instant, and it does not matter by which clock the time is told.  The name
of its file, its time stamp and the line of its document that tells when it was made all say the
same, the first two in digits and up to the second; and the digits of an earlier migration do not
come after those of a later one.

* `Time.FourDigits` — a time which in UTC falls into a year of four digits;
* `Time.FourDigits.exists_toUtc` — such a time can be told in UTC;
* `Time.eq_of_instant_eq` — the instant decides what a clock shows;
* `Time.stamp_eq_digitsToSecond` — a stamp is the digits of the text for the same time;
* `Migration.create_instant` — **a migration depends on the instant alone, tells it twice in the
  same way, and sorts by it**.
-/

namespace SchemaCompiler

namespace Time

/-! ### Times that are told in UTC -/

/-- A time of the calendar that falls, in UTC, into one of the years 1000 to 9999.  If its clock is
that of the machine, this can tell how far it is ahead. -/
structure FourDigits (t : Time) : Prop where
  valid : t.Valid
  told : ∃ ahead, t.ahead = .ok ahead
  first_le : (daysBeforeYear 1000 : Int) * 86400000000 ≤ t.instant
  lt_end : t.instant < (daysBeforeYear 10000 : Int) * 86400000000

variable {t u utc utc' : Time}

/-- **A time of the years 1000 to 9999 can be told in UTC.** -/
theorem FourDigits.exists_toUtc (h : t.FourDigits) :
    ∃ utc, t.toUtc = .ok utc ∧ utc.Valid ∧ 1000 ≤ utc.year ∧ utc.instant = t.instant := by
  have hfirst := h.first_le
  obtain ⟨utc, hutc⟩ := Time.exists_toUtc h.told (by omega) h.lt_end
  obtain ⟨hvalid, hinstant, hself⟩ := toUtc_spec h.valid hutc
  refine ⟨utc, hutc, hvalid, ?_, hinstant⟩
  refine Nat.le_of_not_lt fun hearly => ?_
  have hbefore := hvalid.date.lt_daysBeforeYear hearly
  have hhour := hvalid.hour_lt
  have hminute := hvalid.minute_lt
  have hsecond := hvalid.second_lt
  have hmicro := hvalid.microsecond_lt
  rw [← hinstant, hself, clockSeconds] at hfirst
  omega

/-- A time that the machine's clock shows, where this clock shows UTC, is of the years 1000 to 9999
if the date on the clock is. -/
theorem fourDigits_of_machineInUtc (hvalid : t.Valid) (hzone : t.zone = .machineInUtc)
    (hfirst : (daysBeforeYear 1000 : Int) * 86400000000 ≤ t.clock)
    (hend : t.clock < (daysBeforeYear 10000 : Int) * 86400000000) : t.FourDigits := by
  have hfirstDay : (86400000000 : Int) ≤ (daysBeforeYear 1000 : Int) * 86400000000 := by decide
  have hahead : t.ahead = .ok 0 := by
    rw [ahead, hzone, Zone.machineInUtc]
    exact if_neg (by omega)
  have hinstant : t.instant = t.clock := by rw [instant_of_ahead hahead, Int.sub_zero]
  exact ⟨hvalid, ⟨0, hahead⟩, hinstant ▸ hfirst, hinstant ▸ hend⟩

/-- **The instant decides what a clock in UTC shows.** -/
theorem eq_of_instant_eq (ht : t.Valid) (hu : u.Valid) (hzone : t.zone = .fixed 0)
    (hzone' : u.zone = .fixed 0) (h : t.instant = u.instant) : t = u := by
  have hmicro := ht.microsecond_lt
  have hmicro' := hu.microsecond_lt
  rw [instant_of_zone hzone, instant_of_zone hzone'] at h
  obtain ⟨h1, h2, h3, h4, h5, h6⟩ := fields_eq_of_clockSeconds_eq ht hu (by omega)
  have h7 : t.microsecond = u.microsecond := by omega
  cases t
  cases u
  simp only [mk.injEq] at *
  exact ⟨h1, h2, h3, h4, h5, h6, h7, hzone.trans hzone'.symm⟩

/-! ### Digits -/

/-- The digits of the text of a time, up to the seconds. -/
def digitsToSecond (iso : String) : String :=
  String.ofList ((iso.toList.take 19).filter Char.isDigit)

theorem filter_pair {n : Nat} (h : n < 100) : (Text.pair n).filter Char.isDigit = Text.pair n := by
  have hdigit : ∀ m < 10, (Nat.digitChar m).isDigit = true := by decide
  rw [Text.pair, List.filter_cons, hdigit _ (by omega), List.filter_cons, hdigit _ (by omega)]
  rfl

theorem toList_padNumber_four {n : Nat} (hlow : 1000 ≤ n) (h : n < 10000) :
    (Text.padNumber 4 n).toList = Text.pair (n / 100) ++ Text.pair (n % 100) := by
  have hdigits := Text.toList_toString_of_four_digits hlow h
  rw [Nat.toString_eq_ofList_toDigits, String.toList_ofList] at hdigits
  rw [Text.padNumber, String.toList_ofList, hdigits]
  rfl

/-- The text of a time starts with nineteen characters for its parts down to the second, and their
digits are those of the parts. -/
theorem exists_front_isoText (h : t.Valid) (hyear : 1000 ≤ t.year) :
    ∃ front rest, t.isoText.toList = front ++ rest ∧ front.length = 19 ∧
      front.filter Char.isDigit = t.parts.flatMap Text.pair := by
  have hparts := h.part_lt
  simp only [parts, List.mem_cons, List.not_mem_nil, or_false, forall_eq_or_imp,
    forall_eq] at hparts
  obtain ⟨hcentury, hyears, hmonth, hday, hhour, hminute, hsecond⟩ := hparts
  refine ⟨Text.pair (t.year / 100) ++ Text.pair (t.year % 100) ++ '-' :: Text.pair t.month ++
    '-' :: Text.pair t.day ++ 'T' :: Text.pair t.hour ++ ':' :: Text.pair t.minute ++
    ':' :: Text.pair t.second,
    (if t.microsecond = 0 then "" else "." ++ Text.padNumber 6 t.microsecond).toList ++
      "+00:00".toList, ?_, rfl, ?_⟩
  · simp only [isoText, String.toList_append, Text.toList_padNumber_two hmonth,
      Text.toList_padNumber_two hday, Text.toList_padNumber_two hhour,
      Text.toList_padNumber_two hminute, Text.toList_padNumber_two hsecond,
      toList_padNumber_four hyear (Nat.lt_succ_of_le h.year_le), List.append_assoc]
    rfl
  · have hmark : ∀ c : Char, c.isDigit = false → ∀ {n}, n < 100 →
        (c :: Text.pair n).filter Char.isDigit = Text.pair n := by
      intro c hc n hn
      rw [List.filter_cons, hc, filter_pair hn]
      rfl
    simp only [List.filter_append, filter_pair hcentury, filter_pair hyears, hmark '-' rfl hmonth,
      hmark '-' rfl hday, hmark 'T' rfl hhour, hmark ':' rfl hminute, hmark ':' rfl hsecond,
      parts, List.flatMap_cons, List.flatMap_nil, List.append_assoc, List.append_nil]

/-- **A stamp is the digits of the text for the same time**, up to the seconds. -/
theorem stamp_eq_digitsToSecond (h : t.Valid) (hyear : 1000 ≤ t.year) :
    t.stamp = digitsToSecond t.isoText := by
  obtain ⟨front, rest, hfront, hlength, hdigits⟩ := exists_front_isoText h hyear
  rw [← String.toList_inj, toList_stamp h hyear, digitsToSecond, hfront, String.toList_ofList,
    List.take_left' hlength, hdigits]

/-- **The digits of times are in the order of the instants**, and different in different seconds. -/
theorem stamp_le_of_instant_lt (ht : t.Valid) (hu : u.Valid) (hyear : 1000 ≤ t.year)
    (hyear' : 1000 ≤ u.year) (hzone : t.zone = .fixed 0) (hzone' : u.zone = .fixed 0)
    (hlt : t.instant < u.instant) :
    t.stamp ≤ u.stamp ∧ (t.instant / 1000000 ≠ u.instant / 1000000 → t.stamp < u.stamp) := by
  have hmicro := ht.microsecond_lt
  have hmicro' := hu.microsecond_lt
  rw [instant_of_zone hzone, instant_of_zone hzone'] at *
  rcases Int.lt_trichotomy t.clockSeconds u.clockSeconds with hsecond | hsecond | hsecond
  · have hstamp : t.stamp < u.stamp := by
      have happend := stamp_append_lt ht hu hyear hyear' hsecond "" ""
      rwa [String.append_empty, String.append_empty] at happend
    exact ⟨le_of_lt hstamp, fun _ => hstamp⟩
  · obtain ⟨h1, h2, h3, h4, h5, h6⟩ := fields_eq_of_clockSeconds_eq ht hu hsecond
    have hsame : t.stamp = u.stamp := by rw [stamp, stamp, h1, h2, h3, h4, h5, h6]
    refine ⟨hsame ▸ le_refl _, fun hne => absurd ?_ hne⟩
    omega
  · omega

end Time

namespace Migration

open Time (digitsToSecond)

/-! ### Migrations -/

/-- A file tells the time of its migration in the same way wherever it does: the time stamp and the
front of the file name are the digits, up to the seconds, of the text `iso` in the line of the
document that says when it was created. -/
structure Dated (h : Header) (name iso : String) (file : MigrationFile) : Prop where
  timestamp : file.timestamp = some (digitsToSecond iso)
  fileName : file.fileName = digitsToSecond iso ++ "_" ++ name ++ ".sql"
  content : ∃ rest, file.content = some ("-- " ++ h.description.toText ++ "\n-- Created: " ++ iso ++
    "\n-- Generated by: " ++ h.toolName.toText ++ "\n" ++ rest)

theorem dated_of_create {t utc : Time} (hutc : t.toUtc = .ok utc) (hvalid : utc.Valid)
    (hyear : 1000 ≤ utc.year) {tree : FileTree} {directory name : String} {h : Header}
    {schemas : List Schema} {file : MigrationFile}
    (hfile : (create tree directory name { h with created := t } schemas).2.outcome = .ok file) :
    Dated h name utc.isoText file := by
  rcases create_cases tree directory ⟨name, { h with created := t }, schemas⟩ with
    ⟨fault, hfault, -⟩ | ⟨file', document, place, hok, hfor, -⟩
  · rw [hfile] at hfault
    exact nomatch hfault
  · rw [hfile] at hok
    obtain rfl := Except.ok.inj hok
    obtain ⟨created, text, hcreated, htext, rfl⟩ := hfor
    rw [hutc] at hcreated
    obtain rfl := Except.ok.inj hcreated
    have hstamp := Time.stamp_eq_digitsToSecond hvalid hyear
    refine ⟨by rw [hstamp], by rw [hstamp], ?_⟩
    rw [compileDocument, Traced.outcome_bind, bind_eq_ok] at htext
    obtain ⟨statements, -, htext⟩ := htext
    rw [Traced.outcome_bind, Traced.outcome_lift, Time.toUtc_of_toUtc hutc] at htext
    obtain rfl := Except.ok.inj htext
    refine ⟨"\n" ++ Text.joinWith "\n\n" statements ++ "\n", ?_⟩
    rw [Option.some.injEq, ← String.toList_inj]
    simp [documentText, Header.text]

theorem create_congr {t u : Time} (h : t.toUtc = u.toUtc) (tree : FileTree)
    (directory name : String) (header : Header) (schemas : List Schema) :
    create tree directory name { header with created := t } schemas =
      create tree directory name { header with created := u } schemas := by
  have hprepare : prepare { header with created := t } schemas =
      prepare { header with created := u } schemas := by
    simp only [prepare, h]
  rw [create, create, hprepare]

/-- **A migration depends on the instant at which it is made, tells it twice in the same way, and
sorts by it.**  This is for times which in UTC fall into a year of four digits.

At one instant, by whatever clock it is told, the same is done and written.  The fourteen digits of
the time stamp and of the file name are those of the line of the document that says when it was
created, in UTC and up to the seconds.  Those of an earlier time are not greater than those of a
later one, and smaller if the second is not the same. -/
theorem create_instant {t u : Time} (ht : t.FourDigits) (hu : u.FourDigits) :
    (t.instant = u.instant →
      (∀ (tree : FileTree) (directory name : String) (header : Header) (schemas : List Schema),
        create tree directory name { header with created := t } schemas =
          create tree directory name { header with created := u } schemas) ∧
      (∀ (header : Header) (statements : Value), document { header with created := t } statements =
        document { header with created := u } statements) ∧
      ∀ name, fileName name t = fileName name u) ∧
    ∃ utc utc' : Time, t.toUtc = .ok utc ∧ u.toUtc = .ok utc' ∧
      OneLine utc.isoText ∧ (digitsToSecond utc.isoText).toList.length = 14 ∧
      (∀ (tree : FileTree) (directory name : String) (header : Header) (schemas : List Schema)
        (file : MigrationFile),
        (create tree directory name { header with created := t } schemas).2.outcome = .ok file →
          Dated header name utc.isoText file) ∧
      (t.instant < u.instant →
        digitsToSecond utc.isoText ≤ digitsToSecond utc'.isoText ∧
        (t.instant / 1000000 ≠ u.instant / 1000000 →
          digitsToSecond utc.isoText < digitsToSecond utc'.isoText)) := by
  obtain ⟨utc, hutc, hvalid, hyear, hinstant⟩ := ht.exists_toUtc
  obtain ⟨utc', hutc', hvalid', hyear', hinstant'⟩ := hu.exists_toUtc
  have hzone := Time.zone_of_toUtc hutc
  have hzone' := Time.zone_of_toUtc hutc'
  have hstamp := Time.stamp_eq_digitsToSecond hvalid hyear
  have hstamp' := Time.stamp_eq_digitsToSecond hvalid' hyear'
  constructor
  · intro hsame
    have heq : utc = utc' := Time.eq_of_instant_eq hvalid hvalid' hzone hzone'
      (hinstant.trans (hsame.trans hinstant'.symm))
    have htoUtc : t.toUtc = u.toUtc := by rw [hutc, hutc', heq]
    refine ⟨fun tree directory name header schemas =>
      create_congr htoUtc tree directory name header schemas, ?_, ?_⟩
    · intro header statements
      simp only [document, htoUtc]
    · intro name
      simp only [fileName, htoUtc]
  · refine ⟨utc, utc', hutc, hutc', oneLine_isoText utc, ?_, ?_, ?_⟩
    · rw [← hstamp]
      exact Time.length_stamp hvalid hyear
    · intro tree directory name header schemas file hfile
      exact dated_of_create hutc hvalid hyear hfile
    · intro hlt
      rw [← hstamp, ← hstamp', ← hinstant, ← hinstant']
      exact Time.stamp_le_of_instant_lt hvalid hvalid' hyear hyear' hzone hzone'
        (by rw [hinstant, hinstant']; exact hlt)

/-- A minute before midnight in UTC at the end of a leap day, on a clock two hours ahead. -/
def leapNightAhead : Time where
  year := 2024
  month := 3
  day := 1
  hour := 1
  minute := 59
  second := 0
  microsecond := 250000
  zone := .fixed 7200000000

/-- The same instant, on a clock that shows UTC but does not say so. -/
def leapNight : Time where
  year := 2024
  month := 2
  day := 29
  hour := 23
  minute := 59
  second := 0
  microsecond := 250000
  zone := .machineInUtc

/-- Midnight in UTC at the end of that day, on a clock ten hours behind. -/
def leapNightOver : Time where
  year := 2024
  month := 2
  day := 29
  hour := 14
  minute := 0
  second := 0
  microsecond := 0
  zone := .fixed (-36000000000)

theorem fourDigits_leapNightAhead : leapNightAhead.FourDigits where
  valid := ⟨⟨by decide, by decide, by decide, by decide, by decide⟩, by decide, by decide,
    by decide, by decide, by decide⟩
  told := ⟨_, rfl⟩
  first_le := by decide
  lt_end := by decide

theorem fourDigits_leapNight : leapNight.FourDigits :=
  Time.fourDigits_of_machineInUtc
    ⟨⟨by decide, by decide, by decide, by decide, by decide⟩, by decide, by decide, by decide,
      by decide, by decide⟩
    rfl (by decide) (by decide)

theorem fourDigits_leapNightOver : leapNightOver.FourDigits where
  valid := ⟨⟨by decide, by decide, by decide, by decide, by decide⟩, by decide, by decide,
    by decide, by decide, by decide⟩
  told := ⟨_, rfl⟩
  first_le := by decide
  lt_end := by decide

/-- The two clocks that show the same instant make the same migration, whose file is stamped in UTC;
and the digits of the third clock are greater, though its day is an earlier one than that of the
first. -/
theorem create_instant_leapNight :
    create {} "m" "init" { (viewRequest "v").header with created := leapNightAhead }
          (viewRequest "v").schemas =
        create {} "m" "init" { (viewRequest "v").header with created := leapNight }
          (viewRequest "v").schemas ∧
      ∃ utc utc' file, leapNightAhead.toUtc = .ok utc ∧ leapNightOver.toUtc = .ok utc' ∧
        (create {} "m" "init" { (viewRequest "v").header with created := leapNightAhead }
          (viewRequest "v").schemas).2.outcome = .ok file ∧
        file.timestamp = some "20240229235900" ∧
        Dated (viewRequest "v").header "init" utc.isoText file ∧
        digitsToSecond utc.isoText < digitsToSecond utc'.isoText := by
  obtain ⟨hsame, -⟩ := create_instant fourDigits_leapNightAhead fourDigits_leapNight
  obtain ⟨-, utc, utc', hutc, hutc', -, -, hdated, hless⟩ :=
    create_instant fourDigits_leapNightAhead fourDigits_leapNightOver
  refine ⟨(hsame (by decide)).1 {} "m" "init" (viewRequest "v").header (viewRequest "v").schemas,
    utc, utc', _, hutc, hutc', rfl, rfl, ?_, (hless (by decide)).2 (by decide)⟩
  exact hdated {} "m" "init" (viewRequest "v").header (viewRequest "v").schemas _ rfl

end Migration
end SchemaCompiler
