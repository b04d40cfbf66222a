/-!
# Instants

An `Instant` is a date and a time of day in UTC, to the nanosecond, of the proleptic Gregorian
calendar. A second 60 is a leap second. Main operations: `Civil.back`, which turns a local time into
UTC, and `ofUnix`, which reads a count of seconds since 1970.
-/
namespace ApiCatalog

def isLeapYear (year : Int) : Bool :=
  year % 4 == 0 && (year % 100 != 0 || year % 400 == 0)

def daysInMonth (year : Int) (month : Nat) : Nat :=
  if month = 2 then (if isLeapYear year then 29 else 28)
  else if month = 4 ∨ month = 6 ∨ month = 9 ∨ month = 11 then 30
  else 31

/-- Date and time of day, in some zone and not yet checked. -/
structure Civil where
  year : Int
  month : Nat
  day : Nat
  hour : Nat
  minute : Nat
  second : Nat
  nano : Nat
  deriving DecidableEq, Repr

namespace Civil

/-- A day of the calendar and a time of that day. -/
structure Valid (c : Civil) : Prop where
  year_range : -262143 ≤ c.year ∧ c.year ≤ 262142
  month_range : 1 ≤ c.month ∧ c.month ≤ 12
  day_range : 1 ≤ c.day ∧ c.day ≤ daysInMonth c.year c.month
  hour_lt : c.hour < 24
  minute_lt : c.minute < 60
  second_le : c.second ≤ 60
  nano_lt : c.nano < 1000000000

theorem valid_iff (c : Civil) : c.Valid ↔
    (-262143 ≤ c.year ∧ c.year ≤ 262142) ∧ (1 ≤ c.month ∧ c.month ≤ 12) ∧
    (1 ≤ c.day ∧ c.day ≤ daysInMonth c.year c.month) ∧ c.hour < 24 ∧ c.minute < 60 ∧
    c.second ≤ 60 ∧ c.nano < 1000000000 :=
  ⟨fun ⟨a, b, c, d, e, f, g⟩ => ⟨a, b, c, d, e, f, g⟩,
    fun ⟨a, b, c, d, e, f, g⟩ => ⟨a, b, c, d, e, f, g⟩⟩

instance (c : Civil) : Decidable c.Valid := decidable_of_iff' _ c.valid_iff

/-- The same time of the next day. -/
def nextDay (c : Civil) : Civil :=
  if c.day < daysInMonth c.year c.month then { c with day := c.day + 1 }
  else if c.month < 12 then { c with month := c.month + 1, day := 1 }
  else { c with year := c.year + 1, month := 1, day := 1 }

/-- The same time of the day before. -/
def previousDay (c : Civil) : Civil :=
  if 1 < c.day then { c with day := c.day - 1 }
  else if 1 < c.month then
    { c with month := c.month - 1, day := daysInMonth c.year (c.month - 1) }
  else { c with year := c.year - 1, month := 12, day := 31 }

/-- The time less a number of minutes; fewer than a day of them, of either sign. -/
def back (c : Civil) (minutes : Int) : Civil :=
  let total : Int := c.hour * 60 + c.minute - minutes
  let day := if total < 0 then c.previousDay else if 1440 ≤ total then c.nextDay else c
  let ofDay := (total % 1440).toNat
  { day with hour := ofDay / 60, minute := ofDay % 60 }

end Civil

/-- A valid date and time in UTC. -/
structure Instant extends Civil where
  valid : toCivil.Valid
  deriving DecidableEq

namespace Instant

def ofCivil? (c : Civil) : Option Instant :=
  if h : c.Valid then some ⟨c, h⟩ else none

/-- The start of 1970. -/
def epoch : Instant := ⟨⟨1970, 1, 1, 0, 0, 0, 0⟩, by decide⟩

instance : Inhabited Instant := ⟨epoch⟩

/-- The date of a day counted from 1 March of year 0, by eras of 400 years. -/
def dateOfDay (n : Int) : Int × Nat × Nat :=
  let era := n / 146097
  let dayOfEra := (n % 146097).toNat
  let yearOfEra := (dayOfEra - dayOfEra / 1460 + dayOfEra / 36524 - dayOfEra / 146096) / 365
  let dayOfYear := dayOfEra - (365 * yearOfEra + yearOfEra / 4 - yearOfEra / 100)
  let shifted := (5 * dayOfYear + 2) / 153
  let day := dayOfYear - (153 * shifted + 2) / 5 + 1
  let month := if shifted < 10 then shifted + 3 else shifted - 9
  let year := era * 400 + yearOfEra + (if month ≤ 2 then 1 else 0)
  (year, month, day)

/-- The instant a number of seconds after (or before) the start of 1970. -/
def ofUnix? (seconds : Int) (nano : Nat) : Option Instant :=
  let (year, month, day) := dateOfDay (seconds / 86400 + 719468)
  let ofDay := (seconds % 86400).toNat
  ofCivil? ⟨year, month, day, ofDay / 3600, ofDay / 60 % 60, ofDay % 60, nano⟩

end Instant
end ApiCatalog
