/-! # Dates and times of day

* **`Date`** is a date of the Gregorian calendar; **`Date.ofDay`** is the date of a day counted from
  1 January 1970.
* **`Timestamp`** is a date with a time of day; **`Timestamp.text`** writes it. -/

namespace CallScript

/-- A **date** of the Gregorian calendar. -/
structure Date where
  /-- The year. -/
  year : UInt32
  /-- The month, from 1. -/
  month : Nat
  /-- The day of the month, from 1. -/
  day : Nat
  deriving DecidableEq

namespace Date

/-- The number of days in 400 years, after which the calendar repeats. -/
def cycle : Nat := 146097

/-- From 1 March of the year 0 to 1 January 1970, in days. -/
def epoch : Int64 := 719468

/-- The year within a cycle of a day within the cycle. Years are counted from 1 March, so that the
leap day is the last day of its year. -/
def yearOfCycle (day : Nat) : Nat :=
  (day - day / 1460 + day / 36524 - day / 146096) / 365

/-- How many days a year of the cycle starts after the cycle itself. -/
def yearStart (year : Nat) : Nat :=
  365 * year + year / 4 - year / 100

/-- The month within a year of a day within the year; both count from 0 on 1 March. -/
def monthOfYear (day : Nat) : Nat :=
  (5 * day + 2) / 153

/-- How many days a month starts after 1 March. -/
def monthStart (month : Nat) : Nat :=
  (153 * month + 2) / 5

/-- The date of a day, counted from 1 March of the year 0 and before that day from -1 downwards. The
year is kept modulo 2^32. -/
def ofMarchDay (number : Int) : Date :=
  let era := number / cycle
  let dayOfCycle := (number % cycle).toNat
  let year := yearOfCycle dayOfCycle
  let dayOfYear := dayOfCycle - yearStart year
  let marchMonth := monthOfYear dayOfYear
  let month := if marchMonth < 10 then marchMonth + 3 else marchMonth - 9
  let calendarYear := era * 400 + year + (if month ≤ 2 then 1 else 0)
  ⟨UInt32.ofInt calendarYear, month, dayOfYear - monthStart marchMonth + 1⟩

/-- The date of a day counted in 64 bits from 1 January 1970. Counts of 2^63 and more are days before
that, and moving the start of the count to the year 0 keeps to 64 bits. -/
def ofDay (days : UInt64) : Date :=
  ofMarchDay (days.toInt64 + epoch).toInt

/-- The day on which the count starts. -/
example : ofDay 0 = ⟨1970, 1, 1⟩ ∧ ofDay 19782 = ⟨2024, 2, 29⟩ := by decide

end Date

/-- A **timestamp**: a date and a time of day. -/
structure Timestamp where
  /-- The date. -/
  date : Date
  /-- The hour, from 0 to 23. -/
  hour : Nat
  /-- The minute, from 0 to 59. -/
  minute : Nat
  /-- The second, from 0 to 59. -/
  second : Nat
  /-- The millisecond, from 0 to 999. -/
  millisecond : Nat
  deriving DecidableEq

namespace Timestamp

/-- The timestamp of a moment, given by the seconds since the start of 1970 and the milliseconds
after them. -/
def ofUnix (seconds : UInt64) (milliseconds : Nat) : Timestamp :=
  ⟨Date.ofDay (seconds / 86400), seconds.toNat / 3600 % 24, seconds.toNat / 60 % 60,
    seconds.toNat % 60, milliseconds⟩

/-- A number in decimal, with zeros before it up to the given width. -/
def padded (width number : Nat) : String :=
  String.ofList ((Nat.toDigits 10 number).leftpad width '0')

/-- A timestamp as text. -/
def text (timestamp : Timestamp) : String :=
  let date := timestamp.date
  s!"{padded 4 date.year.toNat}-{padded 2 date.month}-{padded 2 date.day} " ++
    s!"{padded 2 timestamp.hour}:{padded 2 timestamp.minute}:{padded 2 timestamp.second}" ++
    s!".{padded 3 timestamp.millisecond}"

end Timestamp

end CallScript
