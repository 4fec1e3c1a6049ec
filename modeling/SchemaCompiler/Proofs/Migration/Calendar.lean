import SchemaCompiler.Migration.Time

/-!
# The calendar

A day of the calendar has a number and a date, and either gives the other.  So a time keeps its
instant when it is told in UTC, and dates, read as numbers from the year down, are in the order of
the days.

* `Time.Valid` — a date and a time of day that the calendar has;
* `Time.instant` — the microseconds since the first day of the calendar, in UTC;
* `Time.dayNumber_dateOfDay` — the date of a day has the number of the day;
* `Time.toUtc_spec` — **the time in UTC is a valid one of the same instant**;
* `Time.exists_toUtc` — a time that the calendar has in UTC can be told in UTC;
* `Time.clockSeconds_lt_iff` — times are ordered as the numbers that their fields spell.
-/

namespace SchemaCompiler.Time

/-! ### Months and years -/

theorem daysInMonth_le (year month : Nat) : daysInMonth year month ≤ 31 := by
  unfold daysInMonth
  split
  · split <;> decide
  all_goals decide

/-- The days of the months before are those of the one before and all before that. -/
theorem daysBeforeMonth_succ (year : Nat) {month : Nat} (h : 1 ≤ month) :
    daysBeforeMonth year (month + 1) = daysBeforeMonth year month + daysInMonth year month := by
  obtain ⟨m, rfl⟩ := Nat.exists_eq_add_of_le' h
  simp [daysBeforeMonth, List.range_succ]

theorem daysBeforeMonth_mono (year : Nat) {month later : Nat} (h : 1 ≤ month)
    (hle : month ≤ later) :
    daysBeforeMonth year month ≤ daysBeforeMonth year later := by
  obtain ⟨count, rfl⟩ := Nat.exists_eq_add_of_le hle
  induction count with
  | zero => exact Nat.le_refl _
  | succ count ih =>
    have hnext := daysBeforeMonth_succ year (show 1 ≤ month + count by omega)
    have hbefore := ih (by omega)
    rw [Nat.add_assoc] at hnext
    omega

/-- The number of days of a year. -/
def daysInYear (year : Nat) : Nat := if isLeapYear year then 366 else 365

theorem daysBeforeMonth_thirteen (year : Nat) : daysBeforeMonth year 13 = daysInYear year := by
  simp only [daysBeforeMonth, daysInYear, List.range_succ, List.range_zero, List.nil_append,
    List.cons_append, List.foldl_cons, List.foldl_nil, daysInMonth]
  split <;> rfl

theorem daysBeforeYear_succ {year : Nat} (h : 1 ≤ year) :
    daysBeforeYear (year + 1) = daysBeforeYear year + daysInYear year := by
  obtain ⟨y, rfl⟩ := Nat.exists_eq_add_of_le' h
  have hleap : isLeapYear (y + 1) = true ↔
      (y + 1) % 4 = 0 ∧ ((y + 1) % 100 ≠ 0 ∨ (y + 1) % 400 = 0) := by
    simp [isLeapYear]
  have hfours : (y + 1) / 4 = y / 4 + if (y + 1) % 4 = 0 then 1 else 0 := by split <;> omega
  have hcenturies : (y + 1) / 100 = y / 100 + if (y + 1) % 100 = 0 then 1 else 0 := by
    split <;> omega
  have hcycles : (y + 1) / 400 = y / 400 + if (y + 1) % 400 = 0 then 1 else 0 := by
    split <;> omega
  have hfewer : y / 100 ≤ y / 4 := by omega
  have hcentury : (y + 1) % 100 = 0 → (y + 1) % 4 = 0 := by omega
  have hcycle : (y + 1) % 400 = 0 → (y + 1) % 100 = 0 := by omega
  rw [daysBeforeYear, daysBeforeYear, daysInYear]
  simp only [Nat.add_sub_cancel, hleap, hfours, hcenturies, hcycles]
  generalize y / 4 = fours at hfewer
  generalize y / 100 = centuries at hfewer
  generalize y / 400 = cycles
  by_cases h4 : (y + 1) % 4 = 0
  · by_cases h100 : (y + 1) % 100 = 0
    · by_cases h400 : (y + 1) % 400 = 0
      · simp only [h4, h100, h400, if_true, true_and, or_true]
        omega
      · simp only [h4, h100, h400, if_true, if_false, true_and, ne_eq, not_true, or_false]
        omega
    · have h400 : ¬(y + 1) % 400 = 0 := fun h => h100 (hcycle h)
      simp only [h4, h100, h400, if_true, if_false, true_and, ne_eq, not_false_eq_true, or_false]
      omega
  · have h100 : ¬(y + 1) % 100 = 0 := fun h => h4 (hcentury h)
    have h400 : ¬(y + 1) % 400 = 0 := fun h => h100 (hcycle h)
    simp only [h4, h100, h400, if_false, false_and]
    omega

theorem daysBeforeYear_mono {year later : Nat} (h : 1 ≤ year) (hle : year ≤ later) :
    daysBeforeYear year ≤ daysBeforeYear later := by
  obtain ⟨count, rfl⟩ := Nat.exists_eq_add_of_le hle
  induction count with
  | zero => exact Nat.le_refl _
  | succ count ih =>
    have hnext := daysBeforeYear_succ (show 1 ≤ year + count by omega)
    have hbefore := ih (by omega)
    rw [Nat.add_assoc] at hnext
    omega

/-! ### Days and dates -/

/-- A date that the calendar has. -/
structure ValidDate (year month day : Nat) : Prop where
  year_pos : 1 ≤ year
  month_pos : 1 ≤ month
  month_le : month ≤ 12
  day_pos : 1 ≤ day
  day_le : day ≤ daysInMonth year month

/-- A day of a month comes before all days of the months after it. -/
theorem ValidDate.lt_daysBeforeMonth {year month day later : Nat} (h : ValidDate year month day)
    (hlt : month < later) :
    daysBeforeMonth year month + (day - 1) < daysBeforeMonth year later := by
  have hnext := daysBeforeMonth_succ year h.month_pos
  have hmono := daysBeforeMonth_mono year (Nat.le_add_left 1 month) hlt
  have hpos := h.day_pos
  have hle := h.day_le
  omega

theorem ValidDate.lt_daysBeforeYear {year month day later : Nat} (h : ValidDate year month day)
    (hlt : year < later) : dayNumber year month day < daysBeforeYear later := by
  have hday := h.lt_daysBeforeMonth (show month < 13 from Nat.lt_succ_of_le h.month_le)
  have hyear := daysBeforeYear_succ h.year_pos
  have hmono := daysBeforeYear_mono (Nat.le_add_left 1 year) hlt
  have htotal := daysBeforeMonth_thirteen year
  rw [dayNumber]
  omega

/-- A date as one number, from the year down. -/
def dateDigits (year month day : Nat) : Nat := (year * 100 + month) * 100 + day

/-- Dates are in the order of the days. -/
theorem dayNumber_lt_of_dateDigits_lt {year month day year' month' day' : Nat}
    (h : ValidDate year month day) (h' : ValidDate year' month' day')
    (hlt : dateDigits year month day < dateDigits year' month' day') :
    dayNumber year month day < dayNumber year' month' day' := by
  have hdays := daysInMonth_le year month
  have hdays' := daysInMonth_le year' month'
  have hmonth := h.month_le
  have hmonth' := h'.month_le
  have hday := h.day_le
  have hday' := h'.day_le
  rw [dateDigits, dateDigits] at hlt
  rcases Nat.lt_trichotomy year year' with hyear | rfl | hyear
  · have hbefore := h.lt_daysBeforeYear hyear
    rw [dayNumber, dayNumber] at *
    omega
  · rw [dayNumber, dayNumber]
    rcases Nat.lt_trichotomy month month' with hmonths | rfl | hmonths
    · have hbefore := h.lt_daysBeforeMonth hmonths
      omega
    · have hpos := h.day_pos
      omega
    · omega
  · omega

/-- The month of a day and its day of the month, in the months from `month` on. -/
theorem monthOfDay_spec (year : Nat) {month n : Nat} (count : Nat) (h : 1 ≤ month)
    (hn : daysBeforeMonth year month + n < daysBeforeMonth year (month + count)) :
    ∃ m d, monthOfDay year (List.range' month count) n = (m, d) ∧ month ≤ m ∧ m < month + count ∧
      1 ≤ d ∧ d ≤ daysInMonth year m ∧
      daysBeforeMonth year m + (d - 1) = daysBeforeMonth year month + n := by
  induction count generalizing month n with
  | zero =>
    rw [Nat.add_zero] at hn
    omega
  | succ count ih =>
    rw [List.range'_succ, monthOfDay]
    have hnext := daysBeforeMonth_succ year h
    by_cases hfits : n < daysInMonth year month
    · rw [if_pos hfits]
      exact ⟨month, n + 1, rfl, Nat.le_refl _, by omega, by omega, by omega, by omega⟩
    · rw [if_neg hfits]
      rw [show month + (count + 1) = month + 1 + count by omega] at hn
      obtain ⟨m, d, heq, hge, hlt, hpos, hle, hnumber⟩ :=
        ih (show 1 ≤ month + 1 by omega) (n := n - daysInMonth year month) (by omega)
      exact ⟨m, d, heq, by omega, by omega, hpos, hle, by omega⟩

/-- The year of a day, which is found next to a guess. -/
def yearOfDay (n : Nat) : Nat :=
  let guess := n * 400 / 146097 + 1
  if n < daysBeforeYear guess then guess - 1
  else if daysBeforeYear (guess + 1) ≤ n then guess + 1 else guess

/-- The guess is never off by more than one year. -/
theorem yearOfDay_spec (n : Nat) :
    1 ≤ yearOfDay n ∧ daysBeforeYear (yearOfDay n) ≤ n ∧ n < daysBeforeYear (yearOfDay n + 1) := by
  have hguess : n * 400 / 146097 * 146097 ≤ n * 400 ∧
      n * 400 < (n * 400 / 146097 + 1) * 146097 := by omega
  unfold yearOfDay
  simp only
  generalize n * 400 / 146097 = k at hguess
  split
  next hearly =>
    simp only [daysBeforeYear, Nat.add_sub_cancel] at hearly ⊢
    omega
  next hearly =>
    split
    next hlate =>
      simp only [daysBeforeYear, Nat.add_sub_cancel] at hlate ⊢
      omega
    next hlate =>
      simp only [daysBeforeYear, Nat.add_sub_cancel] at hearly hlate ⊢
      omega

/-- The date of a day has the number of the day. -/
theorem dayNumber_dateOfDay (n : Nat) :
    ∃ year month day, dateOfDay n = (year, month, day) ∧ ValidDate year month day ∧
      dayNumber year month day = n := by
  obtain ⟨hyear, hfrom, hto⟩ := yearOfDay_spec n
  have htotal := daysBeforeYear_succ hyear
  have hmonths := daysBeforeMonth_thirteen (yearOfDay n)
  have hfirst : daysBeforeMonth (yearOfDay n) 1 = 0 := rfl
  obtain ⟨month, day, heq, hge, hlt, hpos, hle, hnumber⟩ :=
    monthOfDay_spec (yearOfDay n) 12 (Nat.le_refl 1) (n := n - daysBeforeYear (yearOfDay n))
      (by rw [show 1 + 12 = 13 from rfl]; omega)
  refine ⟨yearOfDay n, month, day, ?_, ⟨hyear, hge, by omega, hpos, hle⟩, ?_⟩
  · show (yearOfDay n, monthOfDay (yearOfDay n) (List.range' 1 12)
      (n - daysBeforeYear (yearOfDay n))) = (yearOfDay n, month, day)
    rw [heq]
  · rw [dayNumber]
    omega

/-! ### Times -/

/-- A date and a time of day that the calendar has. -/
structure Valid (t : Time) : Prop where
  date : ValidDate t.year t.month t.day
  year_le : t.year ≤ 9999
  hour_lt : t.hour < 24
  minute_lt : t.minute < 60
  second_lt : t.second < 60
  microsecond_lt : t.microsecond < 1000000

/-- The microseconds since the first day of the calendar, in UTC, if the distance of the clock is
known. -/
def instant (t : Time) : Int := t.clock - t.ahead.toOption.getD 0

theorem instant_of_ahead {t : Time} {ahead : Int} (h : t.ahead = .ok ahead) :
    t.instant = t.clock - ahead := by
  rw [instant, h]
  rfl

/-- A time in UTC is one whose clock shows UTC. -/
theorem instant_of_zone {t : Time} (h : t.zone = .fixed 0) :
    t.instant = t.clockSeconds * 1000000 + t.microsecond := by
  have hahead : t.ahead = .ok 0 := by rw [ahead, h]
  rw [instant_of_ahead hahead, Int.sub_zero, clock]

/-- The fields of a time as one number, from the year down. -/
def digits (t : Time) : Nat :=
  ((dateDigits t.year t.month t.day * 100 + t.hour) * 100 + t.minute) * 100 + t.second

theorem clockSeconds_ofSeconds (seconds microsecond : Nat) :
    (ofSeconds seconds microsecond).clockSeconds = seconds := by
  obtain ⟨year, month, day, hdate, -, hnumber⟩ := dayNumber_dateOfDay (seconds / 86400)
  rw [ofSeconds, hdate]
  simp only [clockSeconds, hnumber]
  omega

theorem valid_ofSeconds {seconds microsecond : Nat} (h : seconds < calendarDays * 86400)
    (hmicrosecond : microsecond < 1000000) : (ofSeconds seconds microsecond).Valid := by
  obtain ⟨year, month, day, hdate, hvalid, hnumber⟩ := dayNumber_dateOfDay (seconds / 86400)
  rw [ofSeconds, hdate]
  refine ⟨hvalid, ?_, ?_, ?_, ?_, hmicrosecond⟩
  · -- A day of the year 10000 or later lies behind the last day of the calendar.
    show year ≤ 9999
    refine Nat.le_of_not_lt fun hlate => ?_
    have hmono : calendarDays ≤ daysBeforeYear year :=
      daysBeforeYear_mono (by decide) (show 10000 ≤ year from hlate)
    rw [dayNumber] at hnumber
    omega
  · show seconds % 86400 / 3600 < 24
    omega
  · show seconds % 86400 / 60 % 60 < 60
    omega
  · show seconds % 86400 % 60 < 60
    omega

theorem zone_of_toUtc {t utc : Time} (h : t.toUtc = .ok utc) : utc.zone = .fixed 0 := by
  unfold toUtc at h
  split at h
  next => exact nomatch h
  next =>
    cases h
    rfl
  next =>
    simp only at h
    split at h
    next => exact nomatch h
    next =>
      cases h
      rfl

/-- A time in UTC is its own. -/
theorem toUtc_of_toUtc {t utc : Time} (h : t.toUtc = .ok utc) : utc.toUtc = .ok utc := by
  have hzone := zone_of_toUtc h
  have hahead : utc.ahead = .ok 0 := by rw [ahead, hzone]
  rw [toUtc, hahead, ← hzone]
  rfl

/-- **The time in UTC is a valid one of the same instant.** -/
theorem toUtc_spec {t utc : Time} (h : t.Valid) (hutc : t.toUtc = .ok utc) :
    utc.Valid ∧ utc.instant = t.instant ∧ utc.instant = utc.clockSeconds * 1000000 + utc.microsecond
    := by
  have hself := instant_of_zone (zone_of_toUtc hutc)
  unfold toUtc at hutc
  split at hutc
  next => exact nomatch hutc
  next hahead =>
    cases hutc
    refine ⟨⟨h.date, h.year_le, h.hour_lt, h.minute_lt, h.second_lt, h.microsecond_lt⟩, ?_, hself⟩
    rw [hself, instant_of_ahead hahead, Int.sub_zero]
    rfl
  next ahead _ hahead =>
    simp only at hutc
    split at hutc
    next => exact nomatch hutc
    next hinside =>
      cases hutc
      have hnonneg : 0 ≤ t.clock - ahead := by omega
      refine ⟨valid_ofSeconds ?_ (Nat.mod_lt _ (by decide)), ?_, hself⟩
      · omega
      · rw [hself, clockSeconds_ofSeconds, instant_of_ahead hahead]
        show (((t.clock - ahead).toNat / 1000000 : Nat) : Int) * 1000000 +
          (((t.clock - ahead).toNat % 1000000 : Nat) : Int) = t.clock - ahead
        omega

/-- Within the calendar every time can be told in UTC whose distance from UTC is known. -/
theorem exists_toUtc {t : Time} (htold : ∃ ahead, t.ahead = .ok ahead)
    (hfirst : 0 ≤ t.instant) (hend : t.instant < (calendarDays : Int) * 86400000000) :
    ∃ utc, t.toUtc = .ok utc := by
  obtain ⟨ahead, hahead⟩ := htold
  rw [instant_of_ahead hahead] at hfirst hend
  rw [toUtc, hahead]
  split
  next heq => exact nomatch heq
  next => exact ⟨_, rfl⟩
  next heq =>
    cases heq
    dsimp only
    rw [if_neg (by omega)]
    exact ⟨_, rfl⟩

section Order

variable {t u : Time} (ht : t.Valid) (hu : u.Valid)
include ht hu

theorem clockSeconds_lt_of_digits_lt (hlt : t.digits < u.digits) :
    t.clockSeconds < u.clockSeconds := by
  have hhour := ht.hour_lt
  have hminute := ht.minute_lt
  have hsecond := ht.second_lt
  have hhour' := hu.hour_lt
  have hminute' := hu.minute_lt
  have hsecond' := hu.second_lt
  rw [digits, digits] at hlt
  rw [clockSeconds, clockSeconds]
  rcases Nat.lt_trichotomy (dateDigits t.year t.month t.day) (dateDigits u.year u.month u.day)
    with hdate | hdate | hdate
  · have hday := dayNumber_lt_of_dateDigits_lt ht.date hu.date hdate
    omega
  · -- On the same day the time of day decides.
    have hsame : t.year = u.year ∧ t.month = u.month ∧ t.day = u.day := by
      have hmonth := ht.date.month_le
      have hmonth' := hu.date.month_le
      have hday := Nat.le_trans ht.date.day_le (daysInMonth_le _ _)
      have hday' := Nat.le_trans hu.date.day_le (daysInMonth_le _ _)
      rw [dateDigits, dateDigits] at hdate
      omega
    rw [hsame.1, hsame.2.1, hsame.2.2] at hlt ⊢
    omega
  · omega

/-- Times that spell the same number have the same fields, down to the second. -/
theorem fields_eq_of_digits_eq (hdigits : t.digits = u.digits) :
    t.year = u.year ∧ t.month = u.month ∧ t.day = u.day ∧ t.hour = u.hour ∧
      t.minute = u.minute ∧ t.second = u.second := by
  have hmonth := ht.date.month_le
  have hmonth' := hu.date.month_le
  have hday := Nat.le_trans ht.date.day_le (daysInMonth_le _ _)
  have hday' := Nat.le_trans hu.date.day_le (daysInMonth_le _ _)
  have hhour := ht.hour_lt
  have hminute := ht.minute_lt
  have hsecond := ht.second_lt
  have hhour' := hu.hour_lt
  have hminute' := hu.minute_lt
  have hsecond' := hu.second_lt
  rw [digits, digits, dateDigits, dateDigits] at hdigits
  omega

/-- **Times are in the order of the numbers that their fields spell.** -/
theorem clockSeconds_lt_iff : t.clockSeconds < u.clockSeconds ↔ t.digits < u.digits := by
  constructor
  · intro hlt
    rcases Nat.lt_trichotomy t.digits u.digits with hdigits | hdigits | hdigits
    · exact hdigits
    · obtain ⟨h1, h2, h3, h4, h5, h6⟩ := fields_eq_of_digits_eq ht hu hdigits
      rw [clockSeconds, clockSeconds, h1, h2, h3, h4, h5, h6] at hlt
      exact absurd hlt (Int.lt_irrefl _)
    · exact absurd (clockSeconds_lt_of_digits_lt hu ht hdigits) (Int.lt_asymm hlt)
  · exact clockSeconds_lt_of_digits_lt ht hu

/-- A clock shows the same date and time of day at the same number of seconds only. -/
theorem fields_eq_of_clockSeconds_eq (h : t.clockSeconds = u.clockSeconds) :
    t.year = u.year ∧ t.month = u.month ∧ t.day = u.day ∧ t.hour = u.hour ∧
      t.minute = u.minute ∧ t.second = u.second := by
  refine fields_eq_of_digits_eq ht hu (Nat.le_antisymm ?_ ?_)
  · exact Nat.not_lt.1 fun hlt => Int.ne_of_lt ((clockSeconds_lt_iff hu ht).2 hlt) h.symm
  · exact Nat.not_lt.1 fun hlt => Int.ne_of_lt ((clockSeconds_lt_iff ht hu).2 hlt) h

end Order

end SchemaCompiler.Time
