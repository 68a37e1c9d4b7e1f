import Mathlib

/-!
# Civil time

The date and the time of day of a number of seconds since the beginning of 1970, in the Gregorian calendar. Years are
counted from the first of March, so that the day a leap year has more is the last of its year. They come in eras of
400 years, which all have the same number of days; the last century of an era, and the last year of four, may have a
day more than the others.
-/

@[ext] structure CivilTime where
  year : Int
  month : Nat
  day : Nat
  hour : Nat
  minute : Nat
  second : Nat
  deriving DecidableEq

namespace CivilTime

/-- A day of an era, by the century, the four years and the year that it is in. -/
structure DayOfEra where
  century : Int
  fourYears : Int
  year : Int
  day : Int

def dayOfEra (days : Int) : DayOfEra :=
  let century := min (days / 36524) 3
  let ofCentury := days - 36524 * century
  let year := min (ofCentury % 1461 / 365) 3
  { century
    fourYears := ofCentury / 1461
    year
    day := ofCentury % 1461 - 365 * year }

/-- The months since March. -/
def monthOf (day : Int) : Int := (5 * day + 2) / 153

/-- The days of a year before a month of it. -/
def daysBefore (month : Int) : Int := (153 * month + 2) / 5

/-- The days between the first of March of the year 0 and the beginning of 1970. -/
def epoch : Int := 719468

def ofSeconds (seconds : Int) : CivilTime :=
  let shifted := seconds / 86400 + epoch
  let date := dayOfEra (shifted % 146097)
  let month := monthOf date.day
  let rest := (seconds % 86400).toNat
  { year := 400 * (shifted / 146097) + 100 * date.century + 4 * date.fourYears + date.year + if 10 ≤ month then 1 else 0
    month := (if 10 ≤ month then month - 9 else month + 3).toNat
    day := (date.day - daysBefore month + 1).toNat
    hour := rest / 3600
    minute := rest / 60 % 60
    second := rest % 60 }

example : ofSeconds 951782400 = ⟨2000, 2, 29, 0, 0, 0⟩ := by decide

example : ofSeconds (-1) = ⟨1969, 12, 31, 23, 59, 59⟩ := by decide

/-! ### Ranges -/

theorem dayOfEra_range {days : Int} (hfirst : 0 ≤ days) (hlast : days < 146097) :
    (0 ≤ (dayOfEra days).century ∧ (dayOfEra days).century < 4) ∧
      (0 ≤ (dayOfEra days).fourYears ∧ (dayOfEra days).fourYears < 25) ∧
      (0 ≤ (dayOfEra days).year ∧ (dayOfEra days).year < 4) ∧
      (0 ≤ (dayOfEra days).day ∧ (dayOfEra days).day < 366) := by
  simp only [dayOfEra]
  omega

theorem days_eq (days : Int) :
    days = 36524 * (dayOfEra days).century + 1461 * (dayOfEra days).fourYears + 365 * (dayOfEra days).year +
      (dayOfEra days).day := by
  simp only [dayOfEra]
  omega

theorem monthOf_range {day : Int} (hfirst : 0 ≤ day) (hlast : day < 366) : 0 ≤ monthOf day ∧ monthOf day < 12 := by
  unfold monthOf
  omega

theorem dayOfMonth_range (day : Int) :
    0 ≤ day - daysBefore (monthOf day) ∧ day - daysBefore (monthOf day) < 31 := by
  unfold daysBefore monthOf
  omega

/-- Every part of a civil time but the year has two digits. -/
theorem ofSeconds_range (seconds : Int) :
    (ofSeconds seconds).month < 100 ∧ (ofSeconds seconds).day < 100 ∧ (ofSeconds seconds).hour < 100 ∧
      (ofSeconds seconds).minute < 100 ∧ (ofSeconds seconds).second < 100 := by
  have hrange := dayOfEra_range (Int.emod_nonneg (seconds / 86400 + epoch) (by decide : (146097 : Int) ≠ 0))
    (Int.emod_lt_of_pos _ (by decide))
  have hmonth := monthOf_range hrange.2.2.2.1 hrange.2.2.2.2
  have hday := dayOfMonth_range (dayOfEra ((seconds / 86400 + epoch) % 146097)).day
  simp only [ofSeconds]
  refine ⟨?_, ?_, ?_, ?_, ?_⟩
  · split_ifs <;> omega
  · omega
  · omega
  · omega
  · omega

/-! ### A civil time tells the second -/

/-- The parts a year is counted by are the digits of a number. -/
theorem year_digits {era era' century century' fourYears fourYears' year year' : Int}
    (h : 400 * era + 100 * century + 4 * fourYears + year = 400 * era' + 100 * century' + 4 * fourYears' + year')
    (hcentury : 0 ≤ century ∧ century < 4) (hcentury' : 0 ≤ century' ∧ century' < 4)
    (hfour : 0 ≤ fourYears ∧ fourYears < 25) (hfour' : 0 ≤ fourYears' ∧ fourYears' < 25)
    (hyear : 0 ≤ year ∧ year < 4) (hyear' : 0 ≤ year' ∧ year' < 4) :
    era = era' ∧ century = century' ∧ fourYears = fourYears' ∧ year = year' := by
  have hlast : year = year' := by omega
  have hmiddle : fourYears = fourYears' := by omega
  have hfirst : century = century' := by omega
  exact ⟨by omega, hfirst, hmiddle, hlast⟩

theorem ofSeconds_injective : Function.Injective ofSeconds := by
  intro seconds other h
  obtain ⟨days, hdays⟩ : ∃ days, days = seconds / 86400 + epoch := ⟨_, rfl⟩
  obtain ⟨days', hdays'⟩ : ∃ days', days' = other / 86400 + epoch := ⟨_, rfl⟩
  simp only [ofSeconds, ← hdays, ← hdays', CivilTime.mk.injEq] at h
  obtain ⟨hyear, hmonth, hday, hhour, hminute, hsecond⟩ := h
  have hpositive : (146097 : Int) ≠ 0 := by decide
  have hfirst := Int.emod_nonneg days hpositive
  have hfirst' := Int.emod_nonneg days' hpositive
  have hrange := dayOfEra_range hfirst (Int.emod_lt_of_pos _ (by decide))
  have hrange' := dayOfEra_range hfirst' (Int.emod_lt_of_pos _ (by decide))
  have hmonths := monthOf_range hrange.2.2.2.1 hrange.2.2.2.2
  have hmonths' := monthOf_range hrange'.2.2.2.1 hrange'.2.2.2.2
  have hofMonth := dayOfMonth_range (dayOfEra (days % 146097)).day
  have hofMonth' := dayOfMonth_range (dayOfEra (days' % 146097)).day
  have hsame : monthOf (dayOfEra (days % 146097)).day = monthOf (dayOfEra (days' % 146097)).day := by
    split_ifs at hmonth <;> omega
  rw [hsame] at hday hyear hofMonth
  obtain ⟨hera, hcentury, hfour, hyears⟩ := year_digits (add_right_cancel hyear) hrange.1 hrange'.1 hrange.2.1
    hrange'.2.1 hrange.2.2.1 hrange'.2.2.1
  have hsum := days_eq (days % 146097)
  have hsum' := days_eq (days' % 146097)
  have htime : seconds % 86400 = other % 86400 := by omega
  omega

end CivilTime
