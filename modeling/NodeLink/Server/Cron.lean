import Mathlib
import NodeLink.Lib.Calendar
import NodeLink.Lib.Checks
import NodeLink.Lib.Trim
import NodeLink.Server.Maintenance

/-!
# Cron expressions

`core/scheduler.py`: `parse_cron_field`, `validate_cron_expression`, `get_tz`
and `compute_next_run`. Instants are microseconds of UTC, wall-clock times
microseconds of the wall; the zone database is a parameter, as are the decimal
digits of other scripts, which `int` reads too.

A wall-clock time that was computed carries no fold, so where a clock is set
back it is the first of the two instants that show it.
-/

namespace NodeLink.Server.Scheduler

open Lib

/-! ## Numbers and fields -/

section Fields

variable (foreignDigit : Char → Option Nat)

def digitOf (c : Char) : Option Nat :=
  if '0' ≤ c ∧ c ≤ '9' then some (c.toNat - 48)
  else if c.toNat < 128 then none
  else foreignDigit c

/-- The digits that follow, single underscores between them passed over. -/
def moreDigits : Nat → List Char → Option Nat
  | acc, [] => some acc
  | acc, '_' :: c :: cs => do
    let d ← digitOf foreignDigit c
    moreDigits (acc * 10 + d) cs
  | acc, c :: cs => do
    let d ← digitOf foreignDigit c
    moreDigits (acc * 10 + d) cs

def unsignedInt : List Char → Option Nat
  | [] => none
  | c :: cs => do
    let d ← digitOf foreignDigit c
    moreDigits foreignDigit d cs

/-- `int(text)` -/
def pyInt (text : List Char) : Option Int :=
  match trim pySpace text with
  | '-' :: cs => (unsignedInt foreignDigit cs).map fun n => -(n : Int)
  | '+' :: cs => (unsignedInt foreignDigit cs).map Int.ofNat
  | cs => (unsignedInt foreignDigit cs).map Int.ofNat

/-- `text.split(c, 1)` -/
def splitOnce (c : Char) (text : List Char) : List Char × List Char :=
  (text.takeWhile (· ≠ c), (text.dropWhile (· ≠ c)).tail)

/-- `range(first, last + 1, step)` -/
structure CronRange where
  first : Int
  last : Int
  step : Int := 1
  deriving DecidableEq, Repr

def CronRange.holds (r : CronRange) (v : Int) : Bool :=
  decide (r.first ≤ v ∧ v ≤ r.last ∧ (v - r.first) % r.step = 0)

/-- The ends of `a-b`. -/
def parseSpan (text : List Char) : Option (Int × Int) := do
  let first ← pyInt foreignDigit (splitOnce '-' text).1
  let last ← pyInt foreignDigit (splitOnce '-' text).2
  pure (first, last)

/-- One part of a field, between commas. -/
def parsePart (minVal maxVal : Nat) (part : List Char) : Option CronRange :=
  if '/' ∈ part then do
    let step ← pyInt foreignDigit (splitOnce '/' part).2
    if step ≤ 0 then none
    else if (splitOnce '/' part).1 = ['*'] then
      pure ⟨minVal, maxVal, step⟩
    else if '-' ∈ (splitOnce '/' part).1 then do
      let (first, last) ← parseSpan foreignDigit (splitOnce '/' part).1
      pure ⟨first, last, step⟩
    else do
      let first ← pyInt foreignDigit (splitOnce '/' part).1
      pure ⟨first, maxVal, step⟩
  else if '-' ∈ part then do
    let (first, last) ← parseSpan foreignDigit part
    pure ⟨first, last, 1⟩
  else do
    let v ← pyInt foreignDigit part
    pure ⟨v, v, 1⟩

/-- `parse_cron_field`: the values in bounds that a part takes in, or `none`
where it raises `ValueError`. -/
def parseCronField (field : List Char) (minVal maxVal : Nat) :
    Option (List Nat) :=
  if trim pySpace field = ['*'] then some (List.range' minVal (maxVal + 1 - minVal))
  else do
    let parts := ((trim pySpace field).splitOn ',').map (trim pySpace)
    let ranges ← (parts.filter (· ≠ [])).mapM
      (parsePart foreignDigit minVal maxVal)
    pure ((List.range' minVal (maxVal + 1 - minVal)).filter fun v =>
      ranges.any (·.holds v))

/-- `expr.strip().split()` -/
def cronParts (expr : String) : List (List Char) :=
  (expr.toList.splitOnP pySpace).filter (· ≠ [])

/-- The values the five fields of an expression take in; Sunday is 0. -/
structure CronSchedule where
  minutes : List Nat
  hours : List Nat
  doms : List Nat
  months : List Nat
  dows : List Nat
  deriving DecidableEq, Repr

inductive NextRunError where
  | wrongFieldCount
  | badField
  | noMatch
  | overflowError
  deriving DecidableEq, Repr

/-- The fields of an expression, read. -/
def parseCron (expr : String) : Except NextRunError CronSchedule :=
  let field := fun text minVal maxVal =>
    (parseCronField foreignDigit text minVal maxVal).elim
      (.error .badField) Except.ok
  match cronParts expr with
  | [minute, hour, dom, month, dow] => do
    let minutes ← field minute 0 59
    let hours ← field hour 0 23
    let doms ← field dom 1 31
    let months ← field month 1 12
    let dows ← field dow 0 7
    pure ⟨minutes, hours, doms, months, dows⟩
  | _ => .error .wrongFieldCount

/-- `validate_cron_expression` -/
def validateCronExpression (expr : String) : Bool :=
  match parseCron foreignDigit expr with
  | .error _ => false
  | .ok s =>
    !s.minutes.isEmpty && !s.hours.isEmpty && !s.doms.isEmpty
      && !s.months.isEmpty && !s.dows.isEmpty

end Fields

/-! ## Zones -/

/-- A zone's offset from UTC, at an instant and at a wall-clock time. -/
structure Zone where
  offset : Int → Int
  wallOffset : Int → Int

def Zone.utc : Zone := ⟨fun _ => 0, fun _ => 0⟩

/-- What `ZoneInfo(name)` gives; `none` when it raises. -/
abbrev ZoneDatabase := String → Option Zone

local instance lawfulBEqZoneName : LawfulBEq (List Char) := inferInstance

/-- `get_tz` -/
def getTz (zones : ZoneDatabase) (tzName : String) : Zone :=
  if tzName = "" ∨ (strip tzName).toList.map Char.toUpper ∈
      ["UTC", "Z", "GMT"].map String.toList then .utc
  else (zones tzName).getD .utc

/-! ## The next run -/

/-- The wall-clock minute is one the schedule takes in. -/
def CronSchedule.takesIn (s : CronSchedule) (wall : Int) : Bool :=
  let st := stampOf wall
  decide (st.month ∈ s.months) && decide (st.day ∈ s.doms)
    && decide (st.hour ∈ s.hours) && decide (st.minute ∈ s.minutes)
    && decide ((weekday (wall / microsPerDay) + 1) % 7 ∈
      s.dows.map fun d => if d = 7 then 0 else d)

/-- `max_minutes` -/
def maxMinutes : Nat := 5 * 366 * 1440

/-- A sum of `datetime`s, which may leave the calendar. -/
def inCalendar (t : Int) : Except NextRunError Int :=
  if InRange t then .ok t else .error .overflowError

/-- The search, `n` minutes from `curr` on. -/
def searchMinutes (s : CronSchedule) : Nat → Int → Except NextRunError Int
  | 0, _ => .error .noMatch
  | n + 1, curr =>
    if s.takesIn curr then .ok curr
    else do
      let curr ← inCalendar (curr + microsPerMinute)
      searchMinutes s n curr

/-- Down to the minute: `replace(second=0, microsecond=0)`. -/
def wholeMinute (wall : Int) : Int := wall - wall % microsPerMinute

/-- `compute_next_run` -/
def computeNextRun (foreignDigit : Char → Option Nat) (zones : ZoneDatabase)
    (cronExpr tzName : String) (base : Int) : Except NextRunError Int := do
  let s ← parseCron foreignDigit cronExpr
  let tz := getTz zones tzName
  let wall ← inCalendar (base + tz.offset base)
  let wall ← inCalendar (wall + microsPerMinute)
  let next ← searchMinutes s maxMinutes (wholeMinute wall)
  inCalendar (next - tz.wallOffset next)

/-! ## What is found -/

/-- The first minute at or after `start` that the schedule takes in, `k`
minutes on. -/
structure FirstMinute (s : CronSchedule) (start : Int) (k : Nat) : Prop where
  taken : s.takesIn (start + k * microsPerMinute) = true
  first : ∀ j < k, s.takesIn (start + j * microsPerMinute) = false
  inRange : ∀ j ≤ k, j ≠ 0 → InRange (start + j * microsPerMinute)

theorem inCalendar_eq_ok {t t' : Int} :
    inCalendar t = .ok t' ↔ InRange t ∧ t' = t := by
  unfold inCalendar
  split
  · next h => simp [h, eq_comm]
  · next h => simp [h]

theorem firstMinute_zero {s : CronSchedule} {start : Int}
    (h : s.takesIn start = true) : FirstMinute s start 0 where
  taken := by simpa using h
  first := fun j hj => absurd hj (Nat.not_lt_zero j)
  inRange := fun j hj hne => absurd (Nat.le_zero.mp hj) hne

/-- A minute on. -/
theorem firstMinute_succ {s : CronSchedule} {start : Int} {k : Nat}
    (hstart : s.takesIn start = false) :
    FirstMinute s start (k + 1) ↔
      InRange (start + microsPerMinute) ∧
        FirstMinute s (start + microsPerMinute) k := by
  have shift : ∀ j : Nat, start + (j + 1 : Nat) * microsPerMinute =
      start + microsPerMinute + j * microsPerMinute := fun j => by
    push_cast
    ring
  constructor
  · intro h
    have hone := h.inRange 1 (by omega) (by omega)
    refine ⟨by simpa using hone, ?_, fun j hj => ?_, fun j hj _ => ?_⟩
    · rw [← shift]
      exact h.taken
    · rw [← shift]
      exact h.first (j + 1) (by omega)
    · rw [← shift]
      exact h.inRange (j + 1) (by omega) (by omega)
  · rintro ⟨hone, h⟩
    refine ⟨?_, fun j hj => ?_, fun j hj hne => ?_⟩
    · rw [shift]
      exact h.taken
    · cases j with
      | zero => simpa using hstart
      | succ j =>
          rw [shift]
          exact h.first j (by omega)
    · cases j with
      | zero => exact absurd rfl hne
      | succ j =>
          rw [shift]
          cases j with
          | zero => simpa using hone
          | succ j => exact h.inRange (j + 1) (by omega) (by omega)

/-- The search finds the first minute there is. -/
theorem searchMinutes_eq_ok {s : CronSchedule} {n : Nat} {start found : Int} :
    searchMinutes s n start = .ok found ↔
      ∃ k < n, FirstMinute s start k ∧ found = start + k * microsPerMinute := by
  induction n generalizing start with
  | zero => simp [searchMinutes]
  | succ n ih =>
      rw [searchMinutes]
      split
      · next htaken =>
        constructor
        · intro h
          refine ⟨0, Nat.succ_pos n, firstMinute_zero htaken, ?_⟩
          rw [← Except.ok.inj h]
          simp
        · rintro ⟨k, -, hk, rfl⟩
          obtain rfl : k = 0 := by
            by_contra hne
            have hmissed := hk.first 0 (Nat.pos_of_ne_zero hne)
            simp [htaken] at hmissed
          simp
      · next hmissed =>
        have hmissed : s.takesIn start = false := by simpa using hmissed
        simp only [bind_eq_ok, inCalendar_eq_ok]
        constructor
        · rintro ⟨_, ⟨hone, rfl⟩, hrest⟩
          obtain ⟨k, hk, hfirst, rfl⟩ := ih.mp hrest
          refine ⟨k + 1, by omega, (firstMinute_succ hmissed).mpr ⟨hone, hfirst⟩, ?_⟩
          push_cast
          ring
        · rintro ⟨k, hk, hfirst, rfl⟩
          cases k with
          | zero =>
              have htaken := hfirst.taken
              simp [hmissed] at htaken
          | succ k =>
              obtain ⟨hone, hfirst⟩ := (firstMinute_succ hmissed).mp hfirst
              refine ⟨_, ⟨hone, rfl⟩, ih.mpr ⟨k, by omega, hfirst, ?_⟩⟩
              push_cast
              ring

end NodeLink.Server.Scheduler
