import Mathlib.Tactic.SplitIfs

/-!
# Days and dates

The proleptic Gregorian calendar: the date of a day counted from 1970-01-01.

* `civilDate_inj` — two days have two dates
-/

namespace InboxServer

/-- A date of the proleptic Gregorian calendar. -/
structure CivilDate where
  year : Int
  month : Int
  day : Int
  deriving DecidableEq

/--
A day, by the cycles of the calendar. Years are counted from March here, so that a leap day is the
last day of its four-year cycle.
-/
structure DayParts where
  era : Int
  century : Int
  cycle : Int
  yearOfCycle : Int
  dayOfYear : Int

/-- The parts of a day counted from the epoch. -/
def dayParts (day : Int) : DayParts :=
  let inEra := (day + 719468) % 146097
  let century := min 3 (inEra / 36524)
  let inCentury := inEra - 36524 * century
  let inCycle := inCentury % 1461
  let yearOfCycle := min 3 (inCycle / 365)
  { era := (day + 719468) / 146097
    century
    cycle := inCentury / 1461
    yearOfCycle
    dayOfYear := inCycle - 365 * yearOfCycle }

/-- The month, counted from March. -/
def DayParts.month (parts : DayParts) : Int := (5 * parts.dayOfYear + 2) / 153

/-- The date of a day counted from the epoch. -/
def civilDate (day : Int) : CivilDate :=
  let parts := dayParts day
  { year := 400 * parts.era + 100 * parts.century + 4 * parts.cycle + parts.yearOfCycle +
      (if parts.month < 10 then 0 else 1)
    month := if parts.month < 10 then parts.month + 3 else parts.month - 9
    day := parts.dayOfYear - (153 * parts.month + 2) / 5 + 1 }

example : civilDate 0 = { year := 1970, month := 1, day := 1 } := by decide

/-- The ranges of the parts, and the day that they add up to. -/
structure DayParts.Of (day : Int) (parts : DayParts) : Prop where
  sum : day + 719468 = 146097 * parts.era + 36524 * parts.century + 1461 * parts.cycle +
    365 * parts.yearOfCycle + parts.dayOfYear
  century : 0 ≤ parts.century ∧ parts.century ≤ 3
  cycle : 0 ≤ parts.cycle ∧ parts.cycle ≤ 24
  yearOfCycle : 0 ≤ parts.yearOfCycle ∧ parts.yearOfCycle ≤ 3
  dayOfYear : 0 ≤ parts.dayOfYear ∧ parts.dayOfYear ≤ 365
  month : 0 ≤ parts.month ∧ parts.month ≤ 11

theorem dayParts_of (day : Int) : (dayParts day).Of day where
  sum := by simp only [dayParts]; omega
  century := by simp only [dayParts]; omega
  cycle := by simp only [dayParts]; omega
  yearOfCycle := by simp only [dayParts]; omega
  dayOfYear := by simp only [dayParts]; omega
  month := by simp only [dayParts, DayParts.month]; omega

/-- The parts of a date determine the day. -/
theorem civilDate_inj {m n : Int} (h : civilDate m = civilDate n) : m = n := by
  have hyear := congrArg CivilDate.year h
  have hmonth := congrArg CivilDate.month h
  have hday := congrArg CivilDate.day h
  simp only [civilDate] at hyear hmonth hday
  obtain ⟨hm, hm1, hm2, hm3, hm4, hm5⟩ := dayParts_of m
  obtain ⟨hn, hn1, hn2, hn3, hn4, hn5⟩ := dayParts_of n
  have hmarch : (dayParts m).month = (dayParts n).month := by
    split at hmonth <;> split at hmonth <;> omega
  rw [hmarch] at hyear hday
  -- The month and the day of the month give the day of the year, the year gives the cycles.
  have hdays : (dayParts m).dayOfYear = (dayParts n).dayOfYear := by omega
  have hcycles : 100 * (4 * (dayParts m).era + (dayParts m).century) + (4 * (dayParts m).cycle +
      (dayParts m).yearOfCycle) = 100 * (4 * (dayParts n).era + (dayParts n).century) +
      (4 * (dayParts n).cycle + (dayParts n).yearOfCycle) := by omega
  have hcentury : 4 * (dayParts m).era + (dayParts m).century =
      4 * (dayParts n).era + (dayParts n).century := by omega
  have hera : (dayParts m).era = (dayParts n).era := by omega
  have hcycle : (dayParts m).cycle = (dayParts n).cycle := by omega
  omega

/-- A month and a day of the month are positive. -/
theorem civilDate_pos (day : Int) : 0 < (civilDate day).month ∧ 0 < (civilDate day).day := by
  obtain ⟨-, -, -, -, hday, hmonth⟩ := dayParts_of day
  constructor
  · by_cases h : (dayParts day).month < 10 <;> simp only [civilDate, h, if_true, if_false] <;> omega
  · simp only [civilDate, DayParts.month]
    omega

theorem civilDate_le (day : Int) : (civilDate day).month ≤ 12 ∧ (civilDate day).day ≤ 31 := by
  obtain ⟨-, -, -, -, hday, hmonth⟩ := dayParts_of day
  constructor
  · by_cases h : (dayParts day).month < 10 <;> simp only [civilDate, h, if_true, if_false] <;> omega
  · simp only [civilDate, DayParts.month]
    omega

end InboxServer
