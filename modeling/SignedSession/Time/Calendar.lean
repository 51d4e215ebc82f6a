/-!
# The Gregorian calendar

Dates of the Gregorian calendar, carried on in both directions, and times of day in UTC.
`Civil.ofUnix` finds the date and time of a second counted from 1970-01-01 00:00:00, `Civil.toUnix`
the second of a date and time, and `Civil.text` writes `2025-01-29 12:00:00 UTC`; a year outside 0
to 9999 has a sign.

Days are counted in years that begin with the first of March, so that a leap day ends its year.
Such a year is found by taking apart the number of days since 0000-03-01: into cycles of 400 years
(146097 days), centuries (36524 days, the last of a cycle one more), cycles of four years (1461
days, the last of a century one less) and years (365 days, the last of four one more).
-/

set_option autoImplicit false

namespace SignedSession

structure Civil where
  year : Int
  month : Nat
  day : Nat
  hour : Nat
  minute : Nat
  second : Nat
deriving DecidableEq

namespace Civil

def IsLeap (year : Int) : Prop := year % 4 = 0 ∧ (year % 100 ≠ 0 ∨ year % 400 = 0)

instance (year : Int) : Decidable (IsLeap year) := inferInstanceAs (Decidable (_ ∧ _))

def daysInMonth (year : Int) (month : Nat) : Nat :=
  if month = 2 then if IsLeap year then 29 else 28
  else if month = 4 ∨ month = 6 ∨ month = 9 ∨ month = 11 then 30
  else 31

/-- Whether every field names a month, a day of that month and a time of day. -/
def Valid (civil : Civil) : Prop :=
  (1 ≤ civil.month ∧ civil.month ≤ 12) ∧
    (1 ≤ civil.day ∧ civil.day ≤ daysInMonth civil.year civil.month) ∧
      civil.hour < 24 ∧ civil.minute < 60 ∧ civil.second < 60

instance (civil : Civil) : Decidable civil.Valid := inferInstanceAs (Decidable (_ ∧ _))

/-! ## Days -/

/-- A year that begins in March, and the day in it counted from 0. -/
structure MarchDate where
  year : Int
  day : Nat
deriving DecidableEq

def MarchDate.ofDays (days : Int) : MarchDate :=
  let cycle := days / 146097
  let inCycle := (days % 146097).toNat
  let century := min 3 (inCycle / 36524)
  let inCentury := inCycle - 36524 * century
  let four := inCentury / 1461
  let inFour := inCentury - 1461 * four
  let single := min 3 (inFour / 365)
  { year := 400 * cycle + (100 * century + 4 * four + single : Nat)
    day := inFour - 365 * single }

def MarchDate.toDays (date : MarchDate) : Int :=
  365 * date.year + date.year / 4 - date.year / 100 + date.year / 400 + date.day

/-- The first day, counted from March the first, of the month `month` places after March. -/
def monthStart (month : Nat) : Nat := (153 * month + 2) / 5

/-- The number of days from 0000-03-01 to 1970-01-01. -/
def epoch : Int := 719468

/-- The date and time of a second, counted from 1970-01-01 00:00:00. -/
def ofUnix (seconds : Int) : Civil :=
  let date := MarchDate.ofDays (seconds / 86400 + epoch)
  let time := (seconds % 86400).toNat
  let month := (5 * date.day + 2) / 153
  { year := if month < 10 then date.year else date.year + 1
    month := if month < 10 then month + 3 else month - 9
    day := date.day - monthStart month + 1
    hour := time / 3600
    minute := time / 60 % 60
    second := time % 60 }

def toUnix (civil : Civil) : Int :=
  let month := (civil.month + 9) % 12
  let year := if 3 ≤ civil.month then civil.year else civil.year - 1
  let days := MarchDate.toDays ⟨year, monthStart month + civil.day - 1⟩ - epoch
  days * 86400 + (civil.hour * 3600 + civil.minute * 60 + civil.second : Nat)

/-! ## Text -/

def padded (width value : Nat) : String :=
  let digits := toString value
  String.ofList (List.replicate (width - digits.length) '0') ++ digits

/-- A year: four digits, or a sign and at least four digits outside 0 to 9999. -/
def yearText (year : Int) : String :=
  if 0 ≤ year ∧ year ≤ 9999 then padded 4 year.toNat
  else (if year < 0 then "-" else "+") ++ padded 4 year.natAbs

/-- The text `YYYY-MM-DD HH:MM:SS UTC` of a date and time. -/
def text (civil : Civil) : String :=
  yearText civil.year ++ "-" ++ padded 2 civil.month ++ "-" ++ padded 2 civil.day ++ " " ++
    padded 2 civil.hour ++ ":" ++ padded 2 civil.minute ++ ":" ++ padded 2 civil.second ++ " UTC"

end Civil
end SignedSession
