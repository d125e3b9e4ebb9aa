import Mathlib.Data.Nat.Find
import NodeLink.Lib.CivilTime

/-!
# Dates of instants

The day and the time of day that a count of microseconds from 1970-01-01
falls on, in the range a calendar of the years 1 to 9999 has. The year is the
last one that does not begin after the day, and so is the month.
-/

namespace NodeLink.Lib

/-- Days from the first day of year 0 to 1970-01-01. -/
def epochDay : Nat := daysBeforeYear 1970

def dayMicros : Int := 86400 * 1000000

/-- The year of a day, counted from the first day of year 0. -/
def yearOf (day : Nat) : Nat :=
  Nat.findGreatest (fun y => daysBeforeYear y ≤ day) (day / 365)

/-- The month of a day of year `y`, counted from its first day. -/
def monthOf (y dayOfYear : Nat) : Nat :=
  Nat.findGreatest (fun m => daysBeforeMonth y m ≤ dayOfYear) 12

/-- The fields of a time given as microseconds from 1970-01-01. -/
def stampOf (t : Int) : Stamp :=
  let day := (t / dayMicros + epochDay).toNat
  let second := (t % dayMicros / 1000000).toNat
  let year := yearOf day
  let month := monthOf year (day - daysBeforeYear year)
  { year := year
    month := month
    day := day - daysBeforeYear year - daysBeforeMonth year month + 1
    hour := second / 3600
    minute := second / 60 % 60
    second := second % 60
    micro := some (t % 1000000).toNat }

/-- `datetime.min` -/
def minTime : Int := (daysBeforeYear 1 - epochDay : Int) * dayMicros

/-- The first instant after `datetime.max`. -/
def endOfTime : Int := (daysBeforeYear 10000 - epochDay : Int) * dayMicros

/-- A `datetime` can hold the time. -/
def InRange (t : Int) : Prop := minTime ≤ t ∧ t < endOfTime

instance : DecidablePred InRange := fun t =>
  inferInstanceAs (Decidable (minTime ≤ t ∧ t < endOfTime))

example : stampOf 1709164800000000 = ⟨2024, 2, 29, 0, 0, 0, some 0⟩ := by
  decide +kernel

end NodeLink.Lib
