import SpaceLink.Time.Instant

/-!
The proleptic Gregorian calendar and the time of day of an instant. Years are counted from March
inside, so that the leap day is the last of its year.
-/

set_option autoImplicit false

namespace SpaceLink

structure Date where
  year : Int
  month : Nat
  day : Nat
deriving DecidableEq, Repr

namespace Date

def ofDays (days : Int) : Date :=
  let shifted := days + 719468
  let era := shifted / 146097
  let dayOfEra := shifted % 146097
  let yearOfEra := (dayOfEra - dayOfEra / 1460 + dayOfEra / 36524 - dayOfEra / 146096) / 365
  let dayOfYear := dayOfEra - (365 * yearOfEra + yearOfEra / 4 - yearOfEra / 100)
  let march := (5 * dayOfYear + 2) / 153
  let day := dayOfYear - (153 * march + 2) / 5 + 1
  let month := if march < 10 then march + 3 else march - 9
  ⟨yearOfEra + era * 400 + (if month ≤ 2 then 1 else 0), month.toNat, day.toNat⟩

def toDays (d : Date) : Int :=
  let year := if d.month ≤ 2 then d.year - 1 else d.year
  let era := year / 400
  let yearOfEra := year % 400
  let march : Int := if 2 < d.month then (d.month : Int) - 3 else (d.month : Int) + 9
  let dayOfYear := (153 * march + 2) / 5 + (d.day : Int) - 1
  let dayOfEra := yearOfEra * 365 + yearOfEra / 4 - yearOfEra / 100 + dayOfYear
  era * 146097 + dayOfEra - 719468

def isLeap (year : Int) : Bool := year % 4 == 0 && (year % 100 != 0 || year % 400 == 0)

def daysIn (year : Int) (month : Nat) : Nat :=
  if month = 2 then (if isLeap year then 29 else 28)
  else if month = 4 ∨ month = 6 ∨ month = 9 ∨ month = 11 then 30
  else 31

def isValid (d : Date) : Bool :=
  decide (1 ≤ d.month ∧ d.month ≤ 12 ∧ 1 ≤ d.day ∧ d.day ≤ daysIn d.year d.month)

end Date

-- A date and a time of day. Second sixty is a leap second.
structure Civil where
  date : Date
  hour : Nat
  minute : Nat
  second : Nat
  nanos : Nat
deriving DecidableEq, Repr

namespace Civil

def ofInstant (t : Instant) : Civil :=
  let ofDay := (t.seconds % 86400).toNat
  let leap := decide (Instant.nanosPerSecond ≤ t.nanos)
  { date := Date.ofDays (t.seconds / 86400)
    hour := ofDay / 3600
    minute := ofDay / 60 % 60
    second := ofDay % 60 + if leap then 1 else 0
    nanos := if leap then t.nanos - Instant.nanosPerSecond else t.nanos }

-- The instant of a valid date and time, whose clock is `offset` seconds ahead.
def toInstant? (c : Civil) (offset : Int) : Option Instant :=
  if c.date.isValid ∧ c.hour < 24 ∧ c.minute < 60 ∧ c.second ≤ 60 then
    let leap := c.second = 60
    let second := if leap then 59 else c.second
    some
      { seconds := c.date.toDays * 86400 + ((c.hour * 60 + c.minute) * 60 + second : Nat) - offset
        nanos := c.nanos + if leap then Instant.nanosPerSecond else 0 }
  else none

end Civil

end SpaceLink
