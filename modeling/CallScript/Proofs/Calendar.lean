import CallScript.Calendar
import Mathlib.Tactic.IntervalCases

/-! # The calendar day by day

The dates of days against the Gregorian calendar, in which one date follows the other.

* **`CivilDate`** is a date with a year of any size; **`CivilDate.next`** is the date of the day
  after it, and **`CivilDate.afterDays`** counts days from 1 January 1970, one at a time.
* **`CivilDate.dayNumber`** is how many days after 1 March of the year 0 a date is;
  **`CivilDate.dayNumber_next`**: the next day has the next number.
* **`CivilDate.ofMarchDay_dayNumber`**: the formula for the date of a day finds a date from its
  number.
* **`Date.ofDay_gregorian`**: the dates of days are those of the calendar. -/

namespace CallScript

/-! ## The Gregorian calendar -/

/-- A **leap year** is divisible by 4 and not by 100, or is divisible by 400. -/
def IsLeapYear (year : Nat) : Prop :=
  year % 4 = 0 ∧ year % 100 ≠ 0 ∨ year % 400 = 0

instance (year : Nat) : Decidable (IsLeapYear year) :=
  inferInstanceAs (Decidable (_ ∨ _))

/-- The number of days of a month. -/
def daysInMonth (year month : Nat) : Nat :=
  if month = 2 then if IsLeapYear year then 29 else 28
  else if month = 4 ∨ month = 6 ∨ month = 9 ∨ month = 11 then 30
  else 31

/-- Every month has a day. -/
theorem one_le_daysInMonth (year month : Nat) : 1 ≤ daysInMonth year month := by
  unfold daysInMonth
  split
  · split <;> decide
  · split <;> decide

/-- A **civil date**: a date of the Gregorian calendar, with a year of any size. -/
@[ext] structure CivilDate where
  /-- The year. -/
  year : Nat
  /-- The month, from 1. -/
  month : Nat
  /-- The day of the month, from 1. -/
  day : Nat
  deriving DecidableEq

namespace CivilDate

/-- A date is **valid** when its month is one of the twelve and its day one of the month's. -/
structure IsValid (date : CivilDate) : Prop where
  /-- Months are numbered from 1. -/
  one_le_month : 1 ≤ date.month
  /-- There are twelve months. -/
  month_le : date.month ≤ 12
  /-- Days are numbered from 1. -/
  one_le_day : 1 ≤ date.day
  /-- The month has so many days. -/
  day_le : date.day ≤ daysInMonth date.year date.month

/-- The **next** day: in the same month, or the first of the next month, or 1 January. -/
def next (date : CivilDate) : CivilDate :=
  if date.day < daysInMonth date.year date.month then ⟨date.year, date.month, date.day + 1⟩
  else if date.month < 12 then ⟨date.year, date.month + 1, 1⟩
  else ⟨date.year + 1, 1, 1⟩

/-- The date so many days **after** 1 January 1970. -/
def afterDays : Nat → CivilDate
  | 0 => ⟨1970, 1, 1⟩
  | count + 1 => (afterDays count).next

/-- The day after a valid date is valid. -/
theorem IsValid.next {date : CivilDate} (h : date.IsValid) : date.next.IsValid := by
  unfold CivilDate.next
  split
  · next hday => exact ⟨h.one_le_month, h.month_le, Nat.le_add_left 1 date.day, hday⟩
  · split
    · next hmonth =>
      exact ⟨Nat.le_add_left 1 date.month, hmonth, Nat.le_refl 1, one_le_daysInMonth _ _⟩
    · exact ⟨Nat.le_refl 1, Nat.le_add_left 1 11, Nat.le_refl 1, one_le_daysInMonth _ _⟩

/-- Years do not go back. -/
theorem year_le_year_next (date : CivilDate) : date.year ≤ date.next.year := by
  unfold next
  split
  · exact Nat.le_refl _
  · split
    · exact Nat.le_refl _
    · exact Nat.le_succ _

/-! ## Years that start in March -/

/-- The year of a date, if years start in March. -/
def marchYear (date : CivilDate) : Nat :=
  if date.month ≤ 2 then date.year - 1 else date.year

/-- The month of a date, counted from 0 in March. -/
def marchMonth (date : CivilDate) : Nat :=
  if date.month ≤ 2 then date.month + 9 else date.month - 3

/-- How many days a date is after 1 March. -/
def marchDay (date : CivilDate) : Nat :=
  Date.monthStart date.marchMonth + (date.day - 1)

/-- How many days 1 March of a year is after 1 March of the year 0. -/
def daysBeforeYear (year : Nat) : Nat :=
  Date.cycle * (year / 400) + Date.yearStart (year % 400)

/-- The **number** of a date: how many days it is after 1 March of the year 0. -/
def dayNumber (date : CivilDate) : Nat :=
  daysBeforeYear date.marchYear + date.marchDay

/-- A year that starts in March has 366 days if the February at its end has a leap day. -/
theorem daysBeforeYear_succ (year : Nat) :
    daysBeforeYear (year + 1) =
      daysBeforeYear year + if IsLeapYear (year + 1) then 366 else 365 := by
  unfold daysBeforeYear Date.cycle Date.yearStart
  by_cases h : IsLeapYear (year + 1)
  · rw [if_pos h]
    unfold IsLeapYear at h
    omega
  · rw [if_neg h]
    unfold IsLeapYear at h
    omega

/-- February is the last month of the year before. -/
theorem march_of_february {date : CivilDate} (hmonth : date.month = 2) (hyear : 0 < date.year) :
    date.marchYear + 1 = date.year ∧ date.marchMonth = 11 := by
  rw [marchYear, marchMonth, hmonth]
  exact ⟨Nat.sub_add_cancel hyear, rfl⟩

/-- The months before February start as many days apart as they have days. -/
theorem monthStart_succ_marchMonth {date : CivilDate} (h : date.IsValid) (hmonth : date.month ≠ 2) :
    date.marchMonth < 11 ∧
      Date.monthStart (date.marchMonth + 1) =
        Date.monthStart date.marchMonth + daysInMonth date.year date.month := by
  obtain ⟨year, month, day⟩ := date
  obtain ⟨hfirst, hlast, -, -⟩ := h
  simp only at hmonth hfirst hlast
  interval_cases month <;> simp_all [marchMonth, daysInMonth, Date.monthStart]

/-- A date comes before the start of the month after its own, and within the days of its year. -/
theorem marchDay_lt {date : CivilDate} (h : date.IsValid) (hyear : 0 < date.year) :
    date.marchDay < Date.monthStart (date.marchMonth + 1) ∧
      (date.marchDay < 365 ∨ date.marchDay = 365 ∧ IsLeapYear (date.marchYear + 1)) := by
  have hday := h.one_le_day
  have hlast := h.day_le
  by_cases hmonth : date.month = 2
  · obtain ⟨hyear', hmonth'⟩ := march_of_february hmonth hyear
    have hstart : Date.monthStart 11 = 337 := by decide
    have hend : Date.monthStart (11 + 1) = 367 := by decide
    rw [daysInMonth, if_pos hmonth] at hlast
    rw [marchDay, hmonth', hyear', hstart, hend]
    by_cases hleap : IsLeapYear date.year
    · rw [if_pos hleap] at hlast
      refine ⟨by omega, ?_⟩
      rcases Nat.lt_or_ge (337 + (date.day - 1)) 365 with hlt | hge
      · exact .inl hlt
      · exact .inr ⟨by omega, hleap⟩
    · rw [if_neg hleap] at hlast
      exact ⟨by omega, .inl (by omega)⟩
  · obtain ⟨hlt, hnext⟩ := monthStart_succ_marchMonth h hmonth
    -- The months before February end before day 337 of their year.
    have hend : Date.monthStart (date.marchMonth + 1) ≤ 337 := by
      unfold Date.monthStart
      omega
    unfold marchDay
    exact ⟨by omega, .inl (by omega)⟩

/-! ## The number of the next day -/

/-- After the last day of a month other than February comes the first day of the next month, in the
same year if years start in March. -/
theorem march_next {date : CivilDate} (h : date.IsValid)
    (hlast : ¬date.day < daysInMonth date.year date.month) (hmonth : date.month ≠ 2) :
    date.next.marchYear = date.marchYear ∧ date.next.marchMonth = date.marchMonth + 1 ∧
      date.next.day = 1 := by
  rw [next, if_neg hlast]
  by_cases hbefore : date.month < 12
  · have hsame : date.month + 1 ≤ 2 ↔ date.month ≤ 2 := by omega
    rw [if_pos hbefore]
    simp only [marchYear, marchMonth, hsame, true_and, and_true]
    split <;> omega
  · have hdecember : date.month = 12 := Nat.le_antisymm h.month_le (Nat.not_lt.1 hbefore)
    rw [if_neg hbefore]
    simp [marchYear, marchMonth, hdecember]

/-- After the last day of February comes 1 March, with which the next year starts. -/
theorem next_of_february {date : CivilDate} (hmonth : date.month = 2) (hyear : 0 < date.year)
    (hlast : ¬date.day < daysInMonth date.year date.month) :
    date.next.dayNumber = daysBeforeYear (date.marchYear + 1) := by
  have hnext : date.next = ⟨date.year, 3, 1⟩ := by
    rw [next, if_neg hlast, hmonth]
    rfl
  rw [hnext, (march_of_february hmonth hyear).1]
  simp [dayNumber, marchYear, marchDay, marchMonth, Date.monthStart]

/-- **The next day has the next number.** -/
theorem dayNumber_next {date : CivilDate} (h : date.IsValid) (hyear : 0 < date.year) :
    date.next.dayNumber = date.dayNumber + 1 := by
  have hday := h.one_le_day
  by_cases hlast : date.day < daysInMonth date.year date.month
  · rw [next, if_pos hlast]
    simp only [dayNumber, marchYear, marchDay, marchMonth]
    omega
  · have hfull : date.day = daysInMonth date.year date.month :=
      Nat.le_antisymm h.day_le (Nat.not_lt.1 hlast)
    by_cases hmonth : date.month = 2
    · obtain ⟨hyear', hmonth'⟩ := march_of_february hmonth hyear
      have hstart : Date.monthStart 11 = 337 := by decide
      rw [next_of_february hmonth hyear hlast, daysBeforeYear_succ, dayNumber, marchDay, hmonth',
        hstart, hyear', hfull, daysInMonth, if_pos hmonth]
      split <;> omega
    · obtain ⟨hyear', hmonth', hone⟩ := march_next h hlast hmonth
      have hstart := (monthStart_succ_marchMonth h hmonth).2
      rw [dayNumber, dayNumber, marchDay, marchDay, hyear', hmonth', hone, hstart, hfull]
      omega

/-- Counting days goes through valid dates, each with its number. -/
theorem afterDays_spec (count : Nat) :
    (afterDays count).IsValid ∧ 1970 ≤ (afterDays count).year ∧
      (afterDays count).dayNumber = 719468 + count := by
  induction count with
  | zero => exact ⟨⟨by decide, by decide, by decide, by decide⟩, by decide, by decide⟩
  | succ count ih =>
    obtain ⟨hvalid, hyear, hnumber⟩ := ih
    have hpos : 0 < (afterDays count).year := by omega
    refine ⟨hvalid.next, hyear.trans (year_le_year_next _), ?_⟩
    rw [afterDays, dayNumber_next hvalid hpos, hnumber, Nat.add_assoc]

end CivilDate

/-! ## The date of a number -/

namespace Date

/-- Only the last day of the cycle is counted to a fifth century. -/
theorem div_century {century day : Nat} (hcentury : century < 4)
    (hday : day < 36524 ∨ century = 3 ∧ day = 36524) :
    (36524 * century + day) / 36524 = century + (36524 * century + day) / 146096 := by
  omega

/-- The year of a day within the cycle, from its century, the four years of the century, the year of
these four and the day of that year. -/
theorem yearOfCycle_parts {century four year day : Nat} (hcentury : century < 4) (hfour : four < 25)
    (hyear : year < 4)
    (hday : day < 365 ∨ day = 365 ∧ year = 3 ∧ (four < 24 ∨ century = 3)) :
    yearOfCycle (36524 * century + (1461 * four + 365 * year + day)) =
      100 * century + 4 * four + year := by
  have hrest : 1461 * four + 365 * year + day < 36524 ∨
      century = 3 ∧ 1461 * four + 365 * year + day = 36524 := by omega
  have hcenturies := div_century hcentury hrest
  -- Four years have 1461 days, so that counting them by 1460 gets ahead by a day each time.
  have hfours : (36524 * century + (1461 * four + 365 * year + day)) / 1460 =
      25 * century + four + (24 * century + four + (365 * year + day)) / 1460 := by omega
  have hahead : (24 * century + four + (365 * year + day)) / 1460 ≤ day ∧
      day < 365 + (24 * century + four + (365 * year + day)) / 1460 := by
    clear hrest hcenturies hfours
    omega
  rw [yearOfCycle, hcenturies, hfours]
  generalize (24 * century + four + (365 * year + day)) / 1460 = ahead at hahead
  generalize (36524 * century + (1461 * four + 365 * year + day)) / 146096 = last
  clear hrest hcenturies hfours
  rw [Nat.div_eq_iff (by decide)]
  omega

/-- The year of a day within the cycle, from the start of the year and the day of the year. -/
theorem yearOfCycle_yearStart_add {year day : Nat} (hyear : year < 400)
    (hday : day < 365 ∨ day = 365 ∧ IsLeapYear (year + 1)) :
    yearOfCycle (yearStart year + day) = year := by
  have hparts : yearStart year + day =
      36524 * (year / 100) + (1461 * (year % 100 / 4) + 365 * (year % 4) + day) := by
    unfold yearStart
    omega
  have hleap : day < 365 ∨
      day = 365 ∧ year % 4 = 3 ∧ (year % 100 / 4 < 24 ∨ year / 100 = 3) := by
    unfold IsLeapYear at hday
    omega
  rw [hparts, yearOfCycle_parts (by omega) (by omega) (by omega) hleap]
  omega

/-- The month of a day within the year is the one that has started and not ended. -/
theorem monthOfYear_eq {month day : Nat} (hstart : monthStart month ≤ day)
    (hend : day < monthStart (month + 1)) : monthOfYear day = month := by
  unfold monthStart at hstart hend
  unfold monthOfYear
  omega

/-- A year that is not negative is kept modulo 2^32. -/
theorem ofInt_natCast (year : Nat) : UInt32.ofInt year = UInt32.ofNat year := by
  have hyear : ((year : Int) % 2 ^ 32).toNat = year % 2 ^ 32 := by omega
  rw [UInt32.ofInt, hyear, UInt32.ofNat_mod_size]

end Date

namespace CivilDate

/-- The number of a date is made of the cycle of its year, the start of the year in the cycle and
the day of the year. -/
theorem dayNumber_div_mod {date : CivilDate} (h : date.IsValid) (hyear : 0 < date.year) :
    date.dayNumber / Date.cycle = date.marchYear / 400 ∧
      date.dayNumber % Date.cycle = Date.yearStart (date.marchYear % 400) + date.marchDay := by
  have hday := (marchDay_lt h hyear).2
  have hlt : Date.yearStart (date.marchYear % 400) + date.marchDay < Date.cycle := by
    unfold Date.yearStart Date.cycle
    omega
  have hnumber : date.dayNumber = Date.cycle * (date.marchYear / 400) +
      (Date.yearStart (date.marchYear % 400) + date.marchDay) := Nat.add_assoc _ _ _
  rw [hnumber]
  exact ⟨by rw [Nat.mul_add_div (by decide), Nat.div_eq_of_lt hlt, Nat.add_zero],
    by rw [Nat.mul_add_mod, Nat.mod_eq_of_lt hlt]⟩

/-- The year of a date is that of its day within the cycle. -/
theorem yearOfCycle_dayNumber {date : CivilDate} (h : date.IsValid) (hyear : 0 < date.year) :
    Date.yearOfCycle (date.dayNumber % Date.cycle) = date.marchYear % 400 := by
  have hday : date.marchDay < 365 ∨
      date.marchDay = 365 ∧ IsLeapYear (date.marchYear % 400 + 1) := by
    have hleap := (marchDay_lt h hyear).2
    unfold IsLeapYear at hleap ⊢
    omega
  rw [(dayNumber_div_mod h hyear).2,
    Date.yearOfCycle_yearStart_add (Nat.mod_lt _ (by decide)) hday]

/-- The month of a date is that of its day within the year. -/
theorem monthOfYear_marchDay {date : CivilDate} (h : date.IsValid) (hyear : 0 < date.year) :
    Date.monthOfYear date.marchDay = date.marchMonth :=
  Date.monthOfYear_eq (Nat.le_add_right _ _) (marchDay_lt h hyear).1

/-- The month of a date, from the month counted from March. -/
theorem month_of_marchMonth {date : CivilDate} (h : date.IsValid) :
    (if date.marchMonth < 10 then date.marchMonth + 3 else date.marchMonth - 9) = date.month := by
  have hfirst := h.one_le_month
  have hlast := h.month_le
  unfold marchMonth
  split <;> split <;> omega

/-- The year of a date, from the year that starts in March. -/
theorem year_of_marchYear {date : CivilDate} (hyear : 0 < date.year) :
    date.marchYear + (if date.month ≤ 2 then 1 else 0) = date.year := by
  unfold marchYear
  split <;> omega

/-- Dates are told apart by their numbers. -/
theorem eq_of_dayNumber_eq {date other : CivilDate} (h : date.IsValid) (hother : other.IsValid)
    (hyear : 0 < date.year) (hyearOther : 0 < other.year)
    (hnumber : date.dayNumber = other.dayNumber) : date = other := by
  -- The parts of the two dates in years that start in March are the same, from the year down.
  have hmarchYear : date.marchYear = other.marchYear := by
    have hcycle := (dayNumber_div_mod h hyear).1
    have hcycleOther := (dayNumber_div_mod hother hyearOther).1
    have hrest := yearOfCycle_dayNumber h hyear
    have hrestOther := yearOfCycle_dayNumber hother hyearOther
    rw [hnumber] at hcycle hrest
    omega
  have hmarchDay : date.marchDay = other.marchDay := by
    rw [dayNumber, dayNumber, hmarchYear] at hnumber
    exact Nat.add_left_cancel hnumber
  have hmarchMonth : date.marchMonth = other.marchMonth := by
    rw [← monthOfYear_marchDay h hyear, hmarchDay, monthOfYear_marchDay hother hyearOther]
  have hmonth : date.month = other.month := by
    rw [← month_of_marchMonth h, hmarchMonth, month_of_marchMonth hother]
  refine CivilDate.ext ?_ hmonth ?_
  · rw [← year_of_marchYear hyear, hmarchYear, hmonth, year_of_marchYear hyearOther]
  · rw [marchDay, marchDay, hmarchMonth] at hmarchDay
    have hday := h.one_le_day
    have hdayOther := hother.one_le_day
    omega

/-- A date is reached after as many days as its number says. -/
theorem afterDays_eq {date : CivilDate} {count : Nat} (h : date.IsValid) (hyear : 0 < date.year)
    (hnumber : date.dayNumber = 719468 + count) : afterDays count = date := by
  obtain ⟨hvalid, hpos, hcount⟩ := afterDays_spec count
  exact eq_of_dayNumber_eq hvalid h (by omega) hyear (hcount.trans hnumber.symm)

/-- So many days are reached within the years that are counted in 32 bits. -/
theorem lt_of_year_afterDays {count : Nat} (h : (afterDays count).year < 2 ^ 32) :
    count < 2 ^ 62 := by
  obtain ⟨hvalid, hpos, hcount⟩ := afterDays_spec count
  have hday := (marchDay_lt hvalid (by omega)).2
  have hyear : (afterDays count).marchYear ≤ (afterDays count).year := by
    unfold marchYear
    split <;> omega
  have hbefore : daysBeforeYear (afterDays count).marchYear ≤
      366 * (afterDays count).marchYear := by
    unfold daysBeforeYear Date.cycle Date.yearStart
    omega
  rw [dayNumber] at hcount
  omega

/-- A date with its year kept modulo 2^32. -/
def toDate (date : CivilDate) : Date :=
  ⟨UInt32.ofNat date.year, date.month, date.day⟩

/-- **The date of a number is the date with that number.** -/
theorem ofMarchDay_dayNumber {date : CivilDate} (h : date.IsValid) (hyear : 0 < date.year) :
    Date.ofMarchDay date.dayNumber = date.toDate := by
  obtain ⟨hcycle, hmod⟩ := dayNumber_div_mod h hyear
  have hera : (date.dayNumber : Int) / (Date.cycle : Int) = (date.marchYear / 400 : Nat) := by
    rw [← hcycle, Int.natCast_ediv]
  have hrest : ((date.dayNumber : Int) % (Date.cycle : Int)).toNat =
      date.dayNumber % Date.cycle := by
    rw [← Int.natCast_emod, Int.toNat_natCast]
  have hdayOfYear : date.dayNumber % Date.cycle - Date.yearStart (date.marchYear % 400) =
      date.marchDay := by
    rw [hmod, Nat.add_sub_cancel_left]
  have hday : date.marchDay - Date.monthStart date.marchMonth + 1 = date.day := by
    rw [marchDay, Nat.add_sub_cancel_left, Nat.sub_add_cancel h.one_le_day]
  have hyears : ((date.marchYear / 400 : Nat) : Int) * 400 + (date.marchYear % 400 : Nat) +
      (if date.month ≤ 2 then 1 else 0) = date.year := by
    have hsum := year_of_marchYear hyear
    split at hsum <;> omega
  simp only [Date.ofMarchDay, hera, hrest, yearOfCycle_dayNumber h hyear, hdayOfYear,
    monthOfYear_marchDay h hyear, month_of_marchMonth h, hday, hyears, Date.ofInt_natCast, toDate]

end CivilDate

/-! ## Dates of days -/

namespace Date

/-- A date as a civil date. -/
def civil (date : Date) : CivilDate :=
  ⟨date.year.toNat, date.month, date.day⟩

/-- Small counts of days are moved to the year 0 without leaving 64 bits. -/
theorem toInt_add_epoch {day : UInt64} (h : day.toNat < 2 ^ 62) :
    (day.toInt64 + epoch).toInt = (719468 + day.toNat : Nat) := by
  have hday : day.toInt64.toInt = day.toNat := by
    rw [Int64.toInt, UInt64.toBitVec_toInt64, BitVec.toInt_eq_toNat_of_lt, UInt64.toNat_toBitVec]
    rw [UInt64.toNat_toBitVec]
    omega
  have hepoch : epoch.toInt = 719468 := by decide
  rw [Int64.toInt_add, hday, hepoch, Int.bmod_eq_of_le] <;> omega

/-- **The date of a day** is the date that is reached by counting the days one by one, as long as
its year fits. -/
theorem civil_ofDay {day : UInt64} (h : (CivilDate.afterDays day.toNat).year < 2 ^ 32) :
    (ofDay day).civil = CivilDate.afterDays day.toNat := by
  obtain ⟨hvalid, hpos, hnumber⟩ := CivilDate.afterDays_spec day.toNat
  rw [ofDay, toInt_add_epoch (CivilDate.lt_of_year_afterDays h), ← hnumber,
    CivilDate.ofMarchDay_dayNumber hvalid (by omega)]
  ext
  · exact UInt32.toNat_ofNat_of_lt' h
  · rfl
  · rfl

/-- The differences that are taken to find the date of a day within its cycle are **exact**: each is
of a number and one that is not larger. -/
structure DifferencesExact (day : Nat) : Prop where
  /-- The leap days of the cycle, without those that centuries lack. -/
  fours : day / 1460 ≤ day
  /-- The last day of the cycle. -/
  last : day / 146096 ≤ day - day / 1460 + day / 36524
  /-- The leap days that centuries lack. -/
  centuries : yearOfCycle day / 100 ≤ 365 * yearOfCycle day + yearOfCycle day / 4
  /-- The day of the year. -/
  dayOfYear : yearStart (yearOfCycle day) ≤ day
  /-- The day of the month. -/
  dayOfMonth : monthStart (monthOfYear (day - yearStart (yearOfCycle day))) ≤
    day - yearStart (yearOfCycle day)
  /-- The months of the next calendar year. -/
  month : ¬monthOfYear (day - yearStart (yearOfCycle day)) < 10 →
    9 ≤ monthOfYear (day - yearStart (yearOfCycle day))

/-- Every day of the cycle is the day of some date. -/
theorem exists_dayNumber_mod {day : Nat} (h : day < cycle) :
    ∃ date : CivilDate, date.IsValid ∧ 0 < date.year ∧ date.dayNumber % cycle = day := by
  -- The cycle that starts in the year 2000 is counted from 1970.
  obtain ⟨hvalid, hpos, hnumber⟩ := CivilDate.afterDays_spec (5 * cycle + day - 719468)
  refine ⟨_, hvalid, by omega, ?_⟩
  rw [hnumber]
  unfold cycle at *
  omega

/-- The differences are exact on every day of the cycle. -/
theorem differencesExact {day : Nat} (h : day < cycle) : DifferencesExact day := by
  obtain ⟨date, hvalid, hpos, rfl⟩ := exists_dayNumber_mod h
  have hstart : yearStart (yearOfCycle (date.dayNumber % cycle)) ≤ date.dayNumber % cycle := by
    rw [CivilDate.yearOfCycle_dayNumber hvalid hpos, (CivilDate.dayNumber_div_mod hvalid hpos).2]
    exact Nat.le_add_right _ _
  refine ⟨Nat.div_le_self _ _, by omega, by omega, hstart, ?_, by omega⟩
  unfold monthStart monthOfYear
  omega

/-- **Dates are those of the Gregorian calendar.** Day 0 is 1 January 1970. As long as the year of
the day after a day fits in 32 bits, its date is the next one in the calendar, and both dates are
valid. Two days whose years fit have different dates. No difference that is taken on the way, for
any day, is of a number and a larger one. -/
theorem ofDay_gregorian :
    ofDay 0 = ⟨1970, 1, 1⟩ ∧
    (∀ day : UInt64, (CivilDate.afterDays (day.toNat + 1)).year < 2 ^ 32 →
      (ofDay (day + 1)).civil = (ofDay day).civil.next ∧
        (ofDay day).civil.IsValid ∧ (ofDay (day + 1)).civil.IsValid) ∧
    (∀ day other : UInt64, (CivilDate.afterDays day.toNat).year < 2 ^ 32 →
      (CivilDate.afterDays other.toNat).year < 2 ^ 32 → ofDay day = ofDay other → day = other) ∧
    ∀ day : UInt64, DifferencesExact ((day.toInt64 + epoch).toInt % cycle).toNat := by
  refine ⟨by decide, ?_, ?_, ?_⟩
  · intro day hfits
    have hbefore : (CivilDate.afterDays day.toNat).year < 2 ^ 32 :=
      Nat.lt_of_le_of_lt (CivilDate.year_le_year_next _) hfits
    have hsucc : (day + 1).toNat = day.toNat + 1 := by
      have hlt := CivilDate.lt_of_year_afterDays hfits
      rw [UInt64.toNat_add, UInt64.toNat_one, Nat.mod_eq_of_lt (by omega)]
    rw [← hsucc] at hfits
    rw [civil_ofDay hfits, civil_ofDay hbefore, hsucc]
    exact ⟨rfl, (CivilDate.afterDays_spec _).1, (CivilDate.afterDays_spec _).1⟩
  · intro day other hday hother hsame
    have hcivil : CivilDate.afterDays day.toNat = CivilDate.afterDays other.toNat := by
      rw [← civil_ofDay hday, hsame, civil_ofDay hother]
    have hnumber := (CivilDate.afterDays_spec day.toNat).2.2
    rw [hcivil, (CivilDate.afterDays_spec other.toNat).2.2] at hnumber
    exact UInt64.toNat_inj.1 (by omega)
  · intro day
    apply differencesExact
    unfold cycle
    omega

/-- The last two days of the last year that fits. -/
theorem lastDays_gregorian :
    (CivilDate.afterDays (1568703873080 + 1)).year < 2 ^ 32 ∧
      (ofDay (1568703873080 + 1)).civil = (ofDay 1568703873080).civil.next ∧
      (ofDay 1568703873080).civil.IsValid ∧ (ofDay (1568703873080 + 1)).civil.IsValid ∧
      ofDay 1568703873080 ≠ ofDay 1568703873081 := by
  have hlast : CivilDate.afterDays 1568703873081 = ⟨4294967295, 12, 31⟩ :=
    CivilDate.afterDays_eq ⟨by decide, by decide, by decide, by decide⟩ (by decide) (by decide)
  have hbefore : CivilDate.afterDays 1568703873080 = ⟨4294967295, 12, 30⟩ :=
    CivilDate.afterDays_eq ⟨by decide, by decide, by decide, by decide⟩ (by decide) (by decide)
  have hfits : (CivilDate.afterDays 1568703873081).year < 2 ^ 32 := by
    rw [hlast]
    decide
  have hfitsBefore : (CivilDate.afterDays 1568703873080).year < 2 ^ 32 := by
    rw [hbefore]
    decide
  obtain ⟨hnext, hvalid, hvalidNext⟩ := ofDay_gregorian.2.1 1568703873080 hfits
  refine ⟨hfits, hnext, hvalid, hvalidNext, ?_⟩
  intro hsame
  have hequal := ofDay_gregorian.2.2.1 1568703873080 1568703873081 hfitsBefore hfits hsame
  exact absurd hequal (by decide)

end Date

end CallScript
