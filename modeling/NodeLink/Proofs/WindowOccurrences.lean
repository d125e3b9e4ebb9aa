import Mathlib
import NodeLink.Lib.LocalClock
import NodeLink.Server.Maintenance

/-!
# Occurrences of a recurring window

An occurrence is open for its duration from the instant at which the clock of
its zone gets to a scheduled day and start time. `_window_active_at` looks at
the readings of the clock instead, and at the occurrences of two local days.
The two agree but for occurrences that began before the day before, and for
those during which the clock is set.
-/

namespace NodeLink.Proofs.WindowOccurrences

open Lib Server

/-- The zone table that holds these clocks. -/
def zonesOf (clocks : String → Option ClockTable) : ZoneTable :=
  fun name =>
    (clocks name).map fun clock => offsetAt clock.initial clock.changes

/-- The clock of the zone that a window names. -/
def clockOf (clocks : String → Option ClockTable) (timezone : String) :
    ClockTable :=
  (clocks (if timezone = "" then "UTC" else timezone)).getD .utc

theorem localTime_zonesOf (clocks : String → Option ClockTable)
    (timezone : String) (t : Int) :
    localTime (zonesOf clocks) timezone t =
      (clockOf clocks timezone).reading t := by
  unfold localTime zonesOf clockOf
  cases clocks (if timezone = "" then "UTC" else timezone) with
  | none => rfl
  | some clock => rfl

section Occurrences

variable (clock : ClockTable) (r : WeeklyRecurrence) (t : Int)

/-- A day on which an occurrence is scheduled, and the instant at which it
begins. -/
structure Begins (day s : Int) : Prop where
  scheduled : r.days.any (fun d => decide (d.val = weekday day)) = true
  start : clock.GetsTo (r.occurrenceStart day) s

/-- The instant lies in an occurrence. -/
def InOccurrence : Prop :=
  ∃ day s, Begins clock r day s ∧ s ≤ t ∧ t < s + r.duration

/-- By how much more time has passed on the clock since the occurrence began
than has passed: by so much the clock was set forward meanwhile. -/
def setForward (day s : Int) : Int :=
  clock.reading t - r.occurrenceStart day - (t - s)

/-- The local day of the instant. -/
def localDay : Int := clock.reading t / microsPerDay

/-- An occurrence that is open began on the day or the day before, and the
setting of the clock does not show it as not yet open or as over. -/
structure Seen (day s : Int) : Prop where
  begins : Begins clock r day s
  started : s ≤ t
  lasts : t - s < r.duration
  recent : localDay clock t - 1 ≤ day
  notBack : 0 ≤ t - s + setForward clock r t day s
  notOver : t - s + setForward clock r t day s < r.duration

/-- An occurrence that is open began before the day before, or the clock was
set back by more than has passed or forward by all that is left. -/
structure Overlooked (day s : Int) : Prop where
  begins : Begins clock r day s
  started : s ≤ t
  lasts : t - s < r.duration
  missed : day < localDay clock t - 1 ∨ setForward clock r t day s < -(t - s) ∨
    r.duration - (t - s) ≤ setForward clock r t day s

/-- An occurrence of the day or the day before is over, but since it began the
clock was set back by more than has passed since its end. -/
structure Overrun (day s : Int) : Prop where
  begins : Begins clock r day s
  recent : localDay clock t - 1 ≤ day
  ended : r.duration ≤ t - s
  shown : 0 ≤ t - s + setForward clock r t day s
  back : t - s - r.duration < -setForward clock r t day s

/-- An open occurrence is seen, or else there is one overlooked just where
there is one overrun. -/
def Settled : Prop :=
  (∃ day s, Seen clock r t day s) ∨
    ((∃ day s, Overlooked clock r t day s) ↔ ∃ day s, Overrun clock r t day s)

end Occurrences

section Agreement

variable {clock : ClockTable} {r : WeeklyRecurrence} {t day s : Int}

/-- The occurrence of a day is open by the readings of the clock. -/
def Counted (clock : ClockTable) (r : WeeklyRecurrence) (t day : Int) : Prop :=
  (localDay clock t - 1 ≤ day ∧ day ≤ localDay clock t) ∧
    r.openOn (clock.reading t) day = true

theorem windowActiveAt_iff {clocks : String → Option ClockTable}
    {window : MaintenanceWindow} (hr : window.recurrence = some r) :
    windowActiveAt (zonesOf clocks) window t = true ↔
      ∃ day, Counted (clockOf clocks window.timezone) r t day := by
  have hbefore : ∀ w : Int, (w - 1 * microsPerDay) / microsPerDay =
      w / microsPerDay - 1 := by
    intro w
    simp only [microsPerDay]
    omega
  simp only [windowActiveAt, hr, localTime_zonesOf, List.any_cons, List.any_nil,
    Bool.or_false, Bool.or_eq_true, hbefore, Int.zero_mul, Int.sub_zero]
  constructor
  · rintro (h | h)
    · exact ⟨_, ⟨by rw [localDay]; omega, by rw [localDay]⟩, h⟩
    · exact ⟨_, ⟨by rw [localDay], by rw [localDay]; omega⟩, h⟩
  · rintro ⟨day, ⟨hlow, hhigh⟩, h⟩
    rw [localDay] at hlow hhigh
    have hday :
        day = (clockOf clocks window.timezone).reading t / microsPerDay ∨
        day =
          (clockOf clocks window.timezone).reading t / microsPerDay - 1 := by
      omega
    rcases hday with rfl | rfl
    · exact .inl h
    · exact .inr h

/-- The start of an occurrence lies on its day. -/
theorem le_localDay (h : r.occurrenceStart day ≤ clock.reading t) :
    day ≤ localDay clock t := by
  have hhour := Int.natCast_nonneg r.hour.val
  have hminute := Int.natCast_nonneg r.minute.val
  simp only [WeeklyRecurrence.occurrenceStart, microsPerDay,
    microsPerMinute] at h
  simp only [localDay, microsPerDay]
  omega

/-- What is counted has begun, and the clock shows it as open. -/
theorem counted_iff : Counted clock r t day ↔
    ∃ s, Begins clock r day s ∧ s ≤ t ∧ localDay clock t - 1 ≤ day ∧
      0 ≤ t - s + setForward clock r t day s ∧
      t - s + setForward clock r t day s < r.duration := by
  simp only [Counted, WeeklyRecurrence.openOn, Bool.and_eq_true,
    decide_eq_true_iff, setForward]
  constructor
  · rintro ⟨⟨hrecent, -⟩, ⟨hscheduled, hstart⟩, hend⟩
    obtain ⟨s, hle, hs⟩ := clock.exists_getsTo hstart
    exact ⟨s, ⟨hscheduled, hs⟩, hle, hrecent, by omega, by omega⟩
  · rintro ⟨s, hbegins, hle, hrecent, hback, hover⟩
    have hstart : r.occurrenceStart day ≤ clock.reading t := by omega
    exact ⟨⟨hrecent, le_localDay hstart⟩, ⟨hbegins.scheduled, hstart⟩, by omega⟩

/-- What is open is seen or overlooked. -/
theorem inOccurrence_iff : InOccurrence clock r t ↔
    (∃ day s, Seen clock r t day s) ∨ ∃ day s, Overlooked clock r t day s := by
  constructor
  · rintro ⟨day, s, hbegins, hle, hlt⟩
    by_cases hmissed : day < localDay clock t - 1 ∨
        setForward clock r t day s < -(t - s) ∨
        r.duration - (t - s) ≤ setForward clock r t day s
    · exact .inr ⟨day, s, hbegins, hle, by omega, hmissed⟩
    · exact .inl ⟨day, s, hbegins, hle, by omega, by omega, by omega, by omega⟩
  · rintro (⟨day, s, h⟩ | ⟨day, s, h⟩)
    · have hlasts := h.lasts
      exact ⟨day, s, h.begins, h.started, by omega⟩
    · have hlasts := h.lasts
      exact ⟨day, s, h.begins, h.started, by omega⟩

/-- What is counted is seen or overrun. -/
theorem exists_counted_iff : (∃ day, Counted clock r t day) ↔
    (∃ day s, Seen clock r t day s) ∨ ∃ day s, Overrun clock r t day s := by
  simp only [counted_iff]
  constructor
  · rintro ⟨day, s, hbegins, hle, hrecent, hback, hover⟩
    by_cases hlasts : t - s < r.duration
    · exact .inl ⟨day, s, hbegins, hle, hlasts, hrecent, hback, hover⟩
    · exact .inr ⟨day, s, hbegins, hrecent, by omega, hback, by omega⟩
  · rintro (⟨day, s, h⟩ | ⟨day, s, h⟩)
    · exact ⟨day, s, h.begins, h.started, h.recent, h.notBack, h.notOver⟩
    · have hover := h.ended
      have hback := h.back
      have hpos := r.duration_pos
      have hduration : 0 ≤ r.duration := by
        simp only [WeeklyRecurrence.duration, microsPerMinute]
        omega
      exact ⟨day, s, h.begins, by omega, h.recent, h.shown, by omega⟩

theorem counted_iff_inOccurrence :
    ((∃ day, Counted clock r t day) ↔ InOccurrence clock r t) ↔
      Settled clock r t := by
  rw [exists_counted_iff, inOccurrence_iff, Settled]
  by_cases hseen : ∃ day s, Seen clock r t day s
  · exact ⟨fun _ => .inl hseen,
    fun _ => ⟨fun _ => .inl hseen, fun _ => .inl hseen⟩⟩
  · rw [or_iff_right hseen, or_iff_right hseen, or_iff_right hseen]
    exact iff_comm

/-- A clock that is never set settles the occurrences of up to a day. -/
theorem settled_of_fixed (hfixed : clock.changes = [])
    (hday : r.durationMinutes ≤ 24 * 60) : Settled clock r t := by
  have hreading : ∀ u, clock.reading u = u + clock.initial := by
    intro u
    rw [ClockTable.reading, hfixed]
    rfl
  have hset : ∀ {day s}, Begins clock r day s →
    setForward clock r t day s = 0 := by
    intro day s h
    have hshown := h.start.shown
    have hbefore := h.start.before (s - 1) (by omega)
    rw [hreading] at hshown hbefore
    rw [setForward, hreading]
    omega
  refine .inr ⟨fun hmissing => ?_, fun hextra => ?_⟩
  · obtain ⟨day, s, h⟩ := hmissing
    have hstart := hset h.begins
    have hmissed := h.missed
    have hstarted := h.started
    have hlasts := h.lasts
    have hhour := r.hour.isLt
    have hminute := r.minute.isLt
    rw [hstart] at hmissed
    simp only [setForward, localDay, WeeklyRecurrence.occurrenceStart,
      WeeklyRecurrence.duration, microsPerDay, microsPerMinute] at *
    omega
  · obtain ⟨day, s, h⟩ := hextra
    have hback := h.back
    have hover := h.ended
    rw [hset h.begins] at hback
    omega

end Agreement

/-- `_window_active_at` says of an instant that it lies in an occurrence of
the window just where the occurrences are settled. -/
theorem window_active_iff {clocks : String → Option ClockTable}
    {window : MaintenanceWindow} {r : WeeklyRecurrence}
    (hr : window.recurrence = some r) (t : Int) :
    (windowActiveAt (zonesOf clocks) window t = true ↔
        InOccurrence (clockOf clocks window.timezone) r t) ↔
      Settled (clockOf clocks window.timezone) r t := by
  rw [windowActiveAt_iff hr]
  exact counted_iff_inOccurrence

/-! ## A weekend -/

/-- From Friday at 18:00 on, for three days. -/
def weekend : WeeklyRecurrence where
  days := [4]
  hour := 18
  minute := 0
  durationMinutes := 3 * 24 * 60
  days_ne := by decide
  duration_pos := by decide
  duration_le := by decide

def weekendWindow : MaintenanceWindow where
  id := "window-1"
  scope := .global
  scopeID := none
  startsAt := 1767225600000000
  endsAt := 1798761600000000
  timezone := "UTC"
  recurrence := some weekend
  id_ne := by decide

/-- On the Saturday of a weekend. -/
theorem window_active_saturday :
    (windowActiveAt (zonesOf fun _ => none) weekendWindow
        1772884800000000 = true ↔
        InOccurrence (clockOf (fun _ => none) "UTC") weekend 1772884800000000) ↔
      Settled (clockOf (fun _ => none) "UTC") weekend 1772884800000000 :=
  window_active_iff rfl _

/-- On the Sunday the window is open, and is not seen to be. -/
theorem sunday_overlooked :
    windowActiveAt (zonesOf fun _ => none) weekendWindow
        1772971200000000 = false ∧
      InOccurrence (clockOf (fun _ => none) "UTC") weekend
        1772971200000000 := by
  refine ⟨by decide, 20518, 1772820000000000, ⟨by decide, ?_, fun t ht => ?_⟩,
    by decide, by decide⟩
  · decide
  · have hstart : weekend.occurrenceStart 20518 = 1772820000000000 := by decide
    rw [hstart]
    change t + 0 < 1772820000000000
    omega

end NodeLink.Proofs.WindowOccurrences
