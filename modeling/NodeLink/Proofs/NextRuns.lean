import Mathlib
import NodeLink.Lib.LocalClock
import NodeLink.Server.Cron

/-!
# The next run of a schedule

`compute_next_run` walks the minutes of the wall from the base on and asks the
zone which instant the minute it finds names. That is the first instant after
the base at which the clock stands at a minute of the schedule, but for a
clock that is set in between: one set back shows minutes again, one set
forward skips them.
-/

namespace NodeLink.Proofs.NextRuns

open Lib Server Server.Scheduler

/-! ## Clocks as zones -/

def zoneOf (clock : ClockTable) : Zone where
  offset := offsetAt clock.initial clock.changes
  wallOffset := wallOffsetAt clock.initial clock.changes

/-- The zone database that holds these clocks. -/
def zonesOf (clocks : String → Option ClockTable) : ZoneDatabase :=
  fun name => (clocks name).map zoneOf

local instance lawfulBEqClockName : LawfulBEq (List Char) := inferInstance

/-- The clock of the zone that a name stands for. -/
def clockOf (clocks : String → Option ClockTable) (tzName : String) :
    ClockTable :=
  if tzName = "" ∨ (strip tzName).toList.map Char.toUpper ∈
      ["UTC", "Z", "GMT"].map String.toList then .utc
  else (clocks tzName).getD .utc

theorem getTz_zonesOf (clocks : String → Option ClockTable) (tzName : String) :
    getTz (zonesOf clocks) tzName = zoneOf (clockOf clocks tzName) := by
  unfold getTz clockOf
  split
  · rfl
  · unfold zonesOf
    cases clocks tzName with
    | none => rfl
    | some clock => rfl

/-! ## The run that is wanted -/

/-- The clock stands at a minute of the schedule. -/
def Due (clock : ClockTable) (s : CronSchedule) (t : Int) : Prop :=
  clock.reading t % microsPerMinute = 0 ∧ s.takesIn (clock.reading t) = true

/-- The run is later than the base, its local time matches the fields, and no
minute of the schedule is passed over. -/
structure NextRun (clock : ClockTable) (s : CronSchedule) (base next : Int) :
    Prop where
  later : base < next
  fields : s.takesIn (clock.reading next) = true
  first : ∀ t, base < t → t < next → ¬ Due clock s t

/-! ## The minute that is found -/

/-- The first minute of the schedule on the wall after the base's reading. -/
structure NextMinute (clock : ClockTable) (s : CronSchedule) (base m : Int) :
    Prop where
  after : clock.reading base < m
  minute : m % microsPerMinute = 0
  taken : s.takesIn m = true
  first : ∀ w, clock.reading base < w → w < m → w % microsPerMinute = 0 →
    s.takesIn w = false

/-- How the clock gets from the base to the first minute of the schedule: it
has not been there before, no minute up to the base's is one of the schedule
when it is shown again, and if the clock skips the minute, the first minute of
the schedule past the jump is the one as far behind it. -/
structure Undisturbed (clock : ClockTable) (s : CronSchedule) (base m : Int) :
    Prop where
  ahead : ∀ t ≤ base, clock.reading t < m
  notAgain : ∀ t, base < t → t < clock.instant m →
    clock.reading t ≤ clock.reading base → ¬ Due clock s t
  skipped : ¬ clock.Shows m →
    s.takesIn (clock.reading (clock.instant m)) = true ∧
      ∀ t < clock.instant m, m < clock.reading t → ¬ Due clock s t

section Search

variable {clock : ClockTable} {s : CronSchedule} {base m next : Int}

/-- The search walks the whole minutes past a reading, and no others. -/
theorem exists_walked_iff {wall w : Int} :
    (∃ k : Nat,
      w = wholeMinute (wall + microsPerMinute) + k * microsPerMinute) ↔
      wall < w ∧ w % microsPerMinute = 0 := by
  simp only [wholeMinute, microsPerMinute]
  constructor
  · rintro ⟨k, rfl⟩
    omega
  · rintro ⟨hafter, hminute⟩
    refine ⟨((w - (wall - wall % 60000000)) / 60000000 - 1).toNat, ?_⟩
    omega

theorem nextMinute_of_firstMinute {k : Nat}
    (h : FirstMinute s (wholeMinute (clock.reading base + microsPerMinute)) k) :
    NextMinute clock s base
      (wholeMinute (clock.reading base + microsPerMinute)
        + k * microsPerMinute) where
  after := (exists_walked_iff.mp ⟨k, rfl⟩).1
  minute := (exists_walked_iff.mp ⟨k, rfl⟩).2
  taken := h.taken
  first := by
    intro w hafter hbefore hminute
    obtain ⟨j, rfl⟩ := exists_walked_iff.mpr ⟨hafter, hminute⟩
    refine h.first j ?_
    simp only [microsPerMinute] at hbefore
    omega

theorem NextMinute.unique {m' : Int} (h : NextMinute clock s base m)
    (h' : NextMinute clock s base m') : m = m' := by
  rcases lt_trichotomy m m' with hlt | heq | hgt
  · have hmissed := h'.first m h.after hlt h.minute
    rw [h.taken] at hmissed
    cases hmissed
  · exact heq
  · have hmissed := h.first m' h'.after hgt h'.minute
    rw [h'.taken] at hmissed
    cases hmissed

/-- A run that is wanted finds the clock undisturbed. -/
theorem NextRun.undisturbed (hm : NextMinute clock s base m)
    (h : NextRun clock s base (clock.instant m)) :
    Undisturbed clock s base m := by
  have hahead : ∀ t ≤ base, clock.reading t < m := by
    intro t ht
    by_contra hle
    have hskip := clock.skipped (ht.trans_lt h.later) (Int.not_lt.mp hle) ht
    have hafter := hm.after
    omega
  refine ⟨hahead, fun t ht hnext _ => h.first t ht hnext,
    fun _ => ⟨h.fields, ?_⟩⟩
  intro t hnext hpast
  refine h.first t ?_ hnext
  by_contra hle
  have hbehind := hahead t (Int.not_lt.mp hle)
  omega

/-- Where the clock is undisturbed, the minute names the run that is wanted. -/
theorem Undisturbed.nextRun (hm : NextMinute clock s base m)
    (h : Undisturbed clock s base m) :
    NextRun clock s base (clock.instant m) where
  later := by
    by_contra hle
    have hbehind := h.ahead _ (Int.not_lt.mp hle)
    have hnamed := clock.le_reading_instant m
    omega
  fields := by
    by_cases hshown : clock.Shows m
    · obtain ⟨t, rfl⟩ := hshown
      rw [clock.reading_instant_reading]
      exact hm.taken
    · exact (h.skipped hshown).1
  first := by
    intro t ht hnext hdue
    rcases le_or_gt (clock.reading t) (clock.reading base) with hback | hon
    · exact h.notAgain t ht hnext hback hdue
    rcases lt_trichotomy (clock.reading t) m with hbefore | hat | hpast
    · have hmissed := hm.first _ hon hbefore hdue.1
      rw [hdue.2] at hmissed
      cases hmissed
    · have hnamed := clock.instant_reading_le t
      rw [hat] at hnamed
      omega
    · by_cases hshown : clock.Shows m
      · have hbehind := clock.reading_lt hshown hnext
        omega
      · exact (h.skipped hshown).2 t hnext hpast hdue

/-- A clock that is never set gets everywhere undisturbed. -/
theorem undisturbed_of_fixed (hfixed : clock.changes = [])
    (hm : NextMinute clock s base m) : Undisturbed clock s base m := by
  have hreading : ∀ t, clock.reading t = t + clock.initial := by
    intro t
    rw [ClockTable.reading, hfixed]
    rfl
  have hafter := hm.after
  refine ⟨fun t ht => ?_, fun t ht _ hback _ => ?_, fun hshown => ?_⟩
  · rw [hreading] at hafter ⊢
    omega
  · rw [hreading, hreading] at hback
    omega
  · exact absurd ⟨m - clock.initial, by rw [hreading]; omega⟩ hshown

end Search

/-- What `compute_next_run` returns is the next run just where the clock gets
to the first minute of the schedule undisturbed. -/
theorem next_run_iff {foreignDigit : Char → Option Nat}
    {clocks : String → Option ClockTable} {cronExpr tzName : String}
    {s : CronSchedule} {base next : Int}
    (hs : parseCron foreignDigit cronExpr = .ok s)
    (h : computeNextRun foreignDigit (zonesOf clocks) cronExpr tzName base =
      .ok next) :
    NextRun (clockOf clocks tzName) s base next ↔
      ∀ m, NextMinute (clockOf clocks tzName) s base m →
        Undisturbed (clockOf clocks tzName) s base m := by
  simp only [computeNextRun, getTz_zonesOf, bind_eq_ok, inCalendar_eq_ok,
    searchMinutes_eq_ok] at h
  obtain ⟨s', hs', _, ⟨-, rfl⟩, _, ⟨-, rfl⟩, _, ⟨k, -, hfirst, rfl⟩, -, rfl⟩ :=
    h
  obtain rfl := Except.ok.inj (hs.symm.trans hs')
  have hm : NextMinute (clockOf clocks tzName) s base _ :=
    nextMinute_of_firstMinute hfirst
  constructor
  · intro hnext m hm'
    obtain rfl := hm.unique hm'
    exact NextRun.undisturbed hm hnext
  · intro hundisturbed
    exact (hundisturbed _ hm).nextRun hm

/-! ## New York in 2026 -/

/-- The clock of `America/New_York`, with the changes of one year. -/
def newYork : ClockTable where
  initial := -5 * 3600000000
  changes :=
    [⟨1772953200000000, -4 * 3600000000⟩, ⟨1793512800000000, -5 * 3600000000⟩]
  spaced := by
    simp only [Spaced, SpacedFrom]
    decide

def newYorkOnly (name : String) : Option ClockTable :=
  if name = "America/New_York" then some newYork else none

def everyMinute : CronSchedule where
  minutes := List.range' 0 60
  hours := List.range' 0 24
  doms := List.range' 1 31
  months := List.range' 1 12
  dows := List.range' 0 8

theorem everyMinute_parsed :
    parseCron (fun _ => none) "* * * * *" = .ok everyMinute := by
  refine eq_ok_of_toOption ?_
  decide +kernel

/-- At noon of the day the clock is set back. -/
theorem next_run_iff_noon :
    NextRun (clockOf newYorkOnly "America/New_York") everyMinute
        1793534400000000 1793534460000000 ↔
      ∀ m, NextMinute (clockOf newYorkOnly "America/New_York") everyMinute
          1793534400000000 m →
        Undisturbed (clockOf newYorkOnly "America/New_York") everyMinute
          1793534400000000 m := by
  have hrun : computeNextRun (fun _ => none) (zonesOf newYorkOnly) "* * * * *"
      "America/New_York" 1793534400000000 = .ok 1793534460000000 := by
    refine eq_ok_of_toOption ?_
    decide +kernel
  exact next_run_iff everyMinute_parsed hrun

/-- From 01:30 in the second pass of the hour that is shown twice, the next
minute is 01:31 in the first. -/
theorem next_run_earlier :
    ∃ next, computeNextRun (fun _ => none) (zonesOf newYorkOnly) "* * * * *"
        "America/New_York" 1793514600000000 = .ok next ∧
          next < 1793514600000000 ∧
      ¬ NextRun (clockOf newYorkOnly "America/New_York") everyMinute
        1793514600000000 next := by
  refine ⟨1793511060000000, eq_ok_of_toOption ?_, by decide, fun h => ?_⟩
  · decide +kernel
  · exact absurd h.later (by decide)

end NodeLink.Proofs.NextRuns
