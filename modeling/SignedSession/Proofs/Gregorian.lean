import SignedSession.Time.Calendar
import Mathlib.Tactic.IntervalCases

/-!
# Seconds and dates of the Gregorian calendar

`elapsed` counts the seconds from the beginning of 1970 to a date and time by adding up the lengths of the
years and months between.  The main statement is that the date and time found for a second are that many
seconds after 1970.  Both sides are compared with the count of days in years that begin in March, where a
date is a number in a mixed base: cycles, centuries, cycles of four years, years and days.
-/

set_option autoImplicit false

namespace SignedSession.Civil

/-! ## Years and months added up -/

def daysInYear (year : Int) : Nat := if IsLeap year then 366 else 365

/-- The number of days in the first so many years from 1970 on. -/
def daysInYears : (years : Nat) → Nat
  | 0 => 0
  | years + 1 => daysInYears years + daysInYear (1970 + years)

/-- The number of days in the first so many months of a year. -/
def daysInMonths (year : Int) : (months : Nat) → Nat
  | 0 => 0
  | months + 1 => daysInMonths year months + daysInMonth year (months + 1)

/-- The seconds from 1970-01-01 00:00:00 to a date and time in 1970 or later. -/
def elapsed (civil : Civil) : Nat :=
  (daysInYears (civil.year - 1970).toNat + daysInMonths civil.year (civil.month - 1) +
    (civil.day - 1)) * 86400 + (civil.hour * 3600 + civil.minute * 60 + civil.second)

/-- The number of leap years up to a year, from the year 1 on. -/
def leapYears (year : Int) : Int := year / 4 - year / 100 + year / 400

theorem leapYears_eq (year : Int) :
    leapYears year = leapYears (year - 1) + if IsLeap year then 1 else 0 := by
  unfold leapYears
  -- each quotient grows by one where its divisor divides the year, so the rules are tried from 400 down
  by_cases cycle : year % 400 = 0
  · have leap : IsLeap year := by
      unfold IsLeap
      omega
    rw [if_pos leap]
    omega
  · by_cases century : year % 100 = 0
    · have common : ¬ IsLeap year := fun leap => leap.2.elim (· century) cycle
      rw [if_neg common]
      omega
    · by_cases four : year % 4 = 0
      · rw [if_pos ⟨four, .inl century⟩]
        omega
      · have common : ¬ IsLeap year := fun leap => four leap.1
        rw [if_neg common]
        omega

theorem daysInYears_eq (years : Nat) :
    (daysInYears years : Int) = 365 * years + leapYears (1970 + years - 1) - leapYears 1969 := by
  induction years with
  | zero => rfl
  | succ years hypothesis =>
      have same : 1970 + ((years + 1 : Nat) : Int) - 1 = 1970 + years := by omega
      rw [daysInYears, daysInYear, same, leapYears_eq]
      by_cases leap : IsLeap (1970 + years)
      · rw [if_pos leap, if_pos leap]
        omega
      · rw [if_neg leap, if_neg leap]
        omega

/-- The months before March, and then those from March on as they are counted from there. -/
theorem daysInMonths_eq (year : Int) {month : Nat} (small : month < 12) :
    daysInMonths year month =
      if month = 0 then 0
      else if month = 1 then 31
      else monthStart (month - 2) + 59 + if IsLeap year then 1 else 0 := by
  by_cases leap : IsLeap year
  all_goals
    interval_cases month
    all_goals simp [daysInMonths, daysInMonth, monthStart, leap]

/-! ## Years that begin in March -/

/-- A day as a number in a mixed base.  The last day of a March year is a leap day, and then the year after
is a leap year. -/
theorem MarchDate.exists_parts (days : Int) :
    ∃ (cycle : Int) (century four single day : Nat),
      days = 146097 * cycle + (36524 * century + 1461 * four + 365 * single + day : Nat) ∧
      century ≤ 3 ∧ four ≤ 24 ∧ single ≤ 3 ∧ day ≤ 365 ∧
      (day = 365 → single = 3 ∧ (four = 24 → century = 3)) ∧
      ofDays days = ⟨400 * cycle + (100 * century + 4 * four + single : Nat), day⟩ := by
  refine ⟨days / 146097, _, _, _, _, ?_, ?_, ?_, ?_, ?_, ?_, rfl⟩
  all_goals omega

theorem MarchDate.toDays_eq (date : MarchDate) :
    date.toDays = 365 * date.year + leapYears date.year + date.day := by
  unfold toDays leapYears
  omega

theorem MarchDate.toDays_ofDays (days : Int) : (ofDays days).toDays = days := by
  obtain ⟨cycle, century, four, single, day, number, centuries, fours, singles, -, -, date⟩ :=
    exists_parts days
  rw [date, toDays]
  dsimp only
  omega

theorem MarchDate.day_le (days : Int) : (ofDays days).day ≤ 365 := by
  obtain ⟨cycle, century, four, single, day, -, -, -, -, small, -, date⟩ := exists_parts days
  rw [date]
  exact small

theorem MarchDate.isLeap_of_last (days : Int) (last : (ofDays days).day = 365) :
    IsLeap ((ofDays days).year + 1) := by
  obtain ⟨cycle, century, four, single, day, -, centuries, fours, singles, -, leapDay, date⟩ :=
    exists_parts days
  rw [date] at last ⊢
  have ends := leapDay last
  unfold IsLeap
  dsimp only
  omega

theorem MarchDate.year_of_epoch_le {date : MarchDate} (small : date.day ≤ 365)
    (late : epoch ≤ date.toDays) : 1969 ≤ date.year := by
  obtain ⟨year, day⟩ := date
  unfold toDays epoch at late
  dsimp only at small late ⊢
  omega

/-- Every month but the last of a March year ends where the next one begins. -/
theorem monthStart_succ (year : Int) {month : Nat} (early : month < 11) :
    monthStart (month + 1) =
      monthStart month + daysInMonth year (if month < 10 then month + 3 else month - 9) := by
  interval_cases month <;> rfl

/-! ## Dates and times -/

/-- The day of a second, in a month counted from March, from which the date is taken. -/
theorem exists_march (seconds : Int) :
    ∃ (date : MarchDate) (month : Nat),
      date.toDays = seconds / 86400 + epoch ∧
      (date.day = 365 → IsLeap (date.year + 1)) ∧ date.day ≤ 365 ∧
      month < 12 ∧ monthStart month ≤ date.day ∧ date.day < monthStart (month + 1) ∧
      ofUnix seconds =
        { year := if month < 10 then date.year else date.year + 1
          month := if month < 10 then month + 3 else month - 9
          day := date.day - monthStart month + 1
          hour := (seconds % 86400).toNat / 3600
          minute := (seconds % 86400).toNat / 60 % 60
          second := (seconds % 86400).toNat % 60 } := by
  have small := MarchDate.day_le (seconds / 86400 + epoch)
  refine ⟨MarchDate.ofDays (seconds / 86400 + epoch), _, MarchDate.toDays_ofDays _,
    MarchDate.isLeap_of_last _, small, ?_, ?_, ?_, rfl⟩
  · omega
  · unfold monthStart
    omega
  · unfold monthStart
    omega

theorem valid_ofUnix (seconds : Int) : (ofUnix seconds).Valid := by
  obtain ⟨⟨year, day⟩, month, -, last, small, months, starts, ends, date⟩ := exists_march seconds
  dsimp only at last small starts ends date
  rw [date]
  refine ⟨?_, ⟨Nat.le_add_left 1 _, ?_⟩, ?_⟩
  · dsimp only
    split <;> omega
  · dsimp only
    by_cases early : month < 11
    · rw [monthStart_succ (if month < 10 then year else year + 1) early] at ends
      omega
    · -- February, which ends with the March year and so takes its length from the leap rule
      obtain rfl : month = 11 := by omega
      change day - 337 + 1 ≤ if IsLeap (year + 1) then 29 else 28
      by_cases leap : IsLeap (year + 1)
      · rw [if_pos leap]
        omega
      · have notLast : day ≠ 365 := fun isLast => leap (last isLast)
        rw [if_neg leap]
        omega
  · dsimp only
    omega

theorem toUnix_ofUnix (seconds : Int) : (ofUnix seconds).toUnix = seconds := by
  obtain ⟨date, month, whole, -, -, months, starts, -, opened⟩ := exists_march seconds
  have back : (ofUnix seconds).toUnix =
      (date.toDays - epoch) * 86400 + (seconds % 86400).toNat := by
    have time : (seconds % 86400).toNat / 3600 * 3600 + (seconds % 86400).toNat / 60 % 60 * 60 +
        (seconds % 86400).toNat % 60 = (seconds % 86400).toNat := by omega
    rw [opened, toUnix]
    dsimp only
    rw [time]
    by_cases spring : month < 10
    · have sameMonth : (month + 3 + 9) % 12 = month := by omega
      have sameDay : monthStart month + (date.day - monthStart month + 1) - 1 = date.day := by omega
      rw [if_pos spring, if_pos spring, if_pos (Nat.le_add_left 3 month), sameMonth, sameDay]
    · have sameMonth : (month - 9 + 9) % 12 = month := by omega
      have sameDay : monthStart month + (date.day - monthStart month + 1) - 1 = date.day := by omega
      rw [if_neg spring, if_neg spring, if_neg (by omega), sameMonth, sameDay, Int.add_sub_cancel]
  rw [back, whole]
  omega

/-- Both counts of the days before a date of 1970 or later agree. -/
theorem days_eq (years : Nat) {month day : Nat} (first : 1 ≤ month) (last : month ≤ 12)
    (positive : 1 ≤ day) :
    ((daysInYears years + daysInMonths (1970 + years) (month - 1) + (day - 1) : Nat) : Int) =
      MarchDate.toDays ⟨if 3 ≤ month then 1970 + years else 1970 + years - 1,
        monthStart ((month + 9) % 12) + day - 1⟩ - epoch := by
  have inYears := daysInYears_eq years
  have before : leapYears 1969 = 477 := rfl
  rw [daysInMonths_eq _ (show month - 1 < 12 by omega), MarchDate.toDays_eq, epoch]
  dsimp only
  by_cases spring : 3 ≤ month
  · have thisYear := leapYears_eq (1970 + years)
    have sameMonth : (month + 9) % 12 = month - 1 - 2 := by omega
    rw [if_neg (by omega), if_neg (by omega), if_pos spring, sameMonth]
    by_cases leap : IsLeap (1970 + years)
    · rw [if_pos leap] at thisYear ⊢
      omega
    · rw [if_neg leap] at thisYear ⊢
      omega
  · rw [if_neg spring]
    obtain rfl | rfl : month = 1 ∨ month = 2 := by omega
    · rw [if_pos rfl]
      unfold monthStart
      omega
    · rw [if_neg (by decide), if_pos rfl]
      unfold monthStart
      omega

theorem elapsed_eq_toUnix {civil : Civil} (valid : civil.Valid) (late : 1970 ≤ civil.year) :
    (civil.elapsed : Int) = civil.toUnix := by
  obtain ⟨year, month, day, hour, minute, second⟩ := civil
  obtain ⟨⟨first, last⟩, ⟨positive, -⟩, -⟩ := valid
  dsimp only at first last positive late
  obtain ⟨years, rfl⟩ : ∃ years : Nat, year = 1970 + years := ⟨(year - 1970).toNat, by omega⟩
  have sameYears : (1970 + (years : Int) - 1970).toNat = years := by omega
  unfold elapsed toUnix
  dsimp only
  rw [sameYears, ← days_eq years first last positive, Nat.cast_add, Nat.cast_mul]
  rfl

theorem year_ofUnix {seconds : Int} (late : 0 ≤ seconds) : 1970 ≤ (ofUnix seconds).year := by
  obtain ⟨⟨year, day⟩, month, whole, -, small, -, -, ends, opened⟩ := exists_march seconds
  have after : epoch ≤ MarchDate.toDays ⟨year, day⟩ := by omega
  have nearly := MarchDate.year_of_epoch_le small after
  rw [opened]
  dsimp only at ends nearly ⊢
  by_cases spring : month < 10
  · -- from March to December of 1969 there are only 306 days, too few to reach 1970
    rw [if_pos spring]
    by_contra early
    obtain rfl : year = 1969 := by omega
    have inYear : day < 306 := by
      unfold monthStart at ends
      omega
    change 719468 ≤ 719162 + (day : Int) at after
    omega
  · rw [if_neg spring]
    omega

/-- The date and time of a second are that many seconds after the beginning of 1970. -/
theorem elapsed_ofUnix (seconds : Nat) : (ofUnix seconds).elapsed = seconds := by
  have counted := elapsed_eq_toUnix (valid_ofUnix seconds) (year_ofUnix (Int.natCast_nonneg seconds))
  rw [toUnix_ofUnix] at counted
  exact Int.ofNat.inj counted

end SignedSession.Civil
