import Mathlib.Order.Basic
import Mathlib.Data.Int.LeastGreatest

/-!
# Local clocks

A clock that runs ahead of UTC by an offset, which changes at given instants:
set forward, the clock skips readings; set back, it shows them twice. A
reading alone names the first of the instants that show it, and one that is
skipped the instant that the offset before the change gives it.

What is said here of readings and instants rests on one assumption on the
changes: what one does to the readings is over before the next one begins to
matter.
-/

namespace NodeLink.Lib

/-- From an instant on, the clock runs ahead of UTC by an offset. -/
structure OffsetChange where
  instant : Int
  offset : Int
  deriving DecidableEq, Repr

/-- The offset at an instant. -/
def offsetAt (before : Int) : List OffsetChange → Int → Int
  | [], _ => before
  | c :: cs, t => if t < c.instant then before else offsetAt c.offset cs t

/-- The offset that is taken for a reading: a change counts once the readings
it skips or shows twice are past. -/
def wallOffsetAt (before : Int) : List OffsetChange → Int → Int
  | [], _ => before
  | c :: cs, w =>
    if w < c.instant + max before c.offset then before
    else wallOffsetAt c.offset cs w

/-- No change touches a reading before `low`, nor one that the change before
it touches. -/
def SpacedFrom (low before : Int) : List OffsetChange → Prop
  | [] => True
  | c :: cs => low ≤ c.instant + min before c.offset ∧
      SpacedFrom (c.instant + max before c.offset) c.offset cs

def Spaced (before : Int) : List OffsetChange → Prop
  | [] => True
  | c :: cs => SpacedFrom (c.instant + max before c.offset) c.offset cs

/-- A zone's clock. -/
structure ClockTable where
  initial : Int
  changes : List OffsetChange
  spaced : Spaced initial changes

section Readings

variable {low before : Int} {cs : List OffsetChange}

/-- What the clock shows. -/
def readingAt (before : Int) (cs : List OffsetChange) (t : Int) : Int :=
  t + offsetAt before cs t

/-- The instant a reading names. -/
def instantAt (before : Int) (cs : List OffsetChange) (w : Int) : Int :=
  w - wallOffsetAt before cs w

theorem readingAt_of_lt {c : OffsetChange} {t : Int} (h : t < c.instant) :
    readingAt before (c :: cs) t = t + before := by
  rw [readingAt, offsetAt, if_pos h]

theorem readingAt_of_le {c : OffsetChange} {t : Int} (h : c.instant ≤ t) :
    readingAt before (c :: cs) t = readingAt c.offset cs t := by
  rw [readingAt, offsetAt, if_neg (Int.not_lt.mpr h), readingAt]

theorem instantAt_of_lt {c : OffsetChange} {w : Int}
    (h : w < c.instant + max before c.offset) :
    instantAt before (c :: cs) w = w - before := by
  rw [instantAt, wallOffsetAt, if_pos h]

theorem instantAt_of_le {c : OffsetChange} {w : Int}
    (h : c.instant + max before c.offset ≤ w) :
    instantAt before (c :: cs) w = instantAt c.offset cs w := by
  rw [instantAt, wallOffsetAt, if_neg (Int.not_lt.mpr h), instantAt]

/-- The clock does not go back behind readings that no change touches. -/
theorem SpacedFrom.le_readingAt (h : SpacedFrom low before cs) {x t : Int}
    (hlow : x ≤ low) (ht : x ≤ t + before) : x ≤ readingAt before cs t := by
  induction cs generalizing low before with
  | nil => exact ht
  | cons c cs ih =>
      obtain ⟨hc, hrest⟩ := h
      by_cases hlt : t < c.instant
      · rw [readingAt_of_lt hlt]
        exact ht
      · rw [readingAt_of_le (Int.not_lt.mp hlt)]
        exact ih hrest (by omega) (by omega)

/-- Readings past the start of an offset name instants past it. -/
theorem SpacedFrom.le_instantAt (h : SpacedFrom low before cs) {i w : Int}
    (hlow : i + before ≤ low) (hw : i + before ≤ w) :
    i ≤ instantAt before cs w := by
  induction cs generalizing low before i with
  | nil =>
      simp only [instantAt, wallOffsetAt]
      omega
  | cons c cs ih =>
      obtain ⟨hc, hrest⟩ := h
      by_cases hlt : w < c.instant + max before c.offset
      · rw [instantAt_of_lt hlt]
        omega
      · rw [instantAt_of_le (Int.not_lt.mp hlt)]
        have hlater := ih hrest (i := c.instant) (by omega) (by omega)
        omega

/-- Past a change that sets the clock forward, no reading before the end of
its jump is shown. -/
theorem SpacedFrom.jump_le_readingAt {c : OffsetChange}
    (h : SpacedFrom low before (c :: cs)) {t : Int} (ht : c.instant ≤ t) :
    c.instant + c.offset ≤ readingAt before (c :: cs) t := by
  rw [readingAt_of_le ht]
  exact h.2.le_readingAt (by omega) (by omega)

/-- A reading that is shown names the first instant that shows it. -/
theorem SpacedFrom.instantAt_readingAt (h : SpacedFrom low before cs)
    (t : Int) :
    readingAt before cs (instantAt before cs (readingAt before cs t)) =
        readingAt before cs t ∧
      instantAt before cs (readingAt before cs t) ≤ t := by
  induction cs generalizing low before with
  | nil =>
      simp only [instantAt, wallOffsetAt, readingAt, offsetAt]
      omega
  | cons c cs ih =>
      by_cases ht : t < c.instant
      · rw [readingAt_of_lt ht, instantAt_of_lt (by omega), Int.add_sub_cancel,
          readingAt_of_lt ht]
        exact ⟨rfl, le_refl t⟩
      have ht := Int.not_lt.mp ht
      have hjump := h.jump_le_readingAt ht
      by_cases hw :
          readingAt before (c :: cs) t < c.instant + max before c.offset
      · rw [instantAt_of_lt hw]
        have hearly : readingAt before (c :: cs) t - before < c.instant := by
          omega
        rw [readingAt_of_lt hearly]
        omega
      · rw [instantAt_of_le (Int.not_lt.mp hw)]
        have hlate := h.2.le_instantAt (i := c.instant)
          (w := readingAt before (c :: cs) t) (by omega) (by omega)
        rw [readingAt_of_le hlate, readingAt_of_le ht]
        exact ih h.2

/-- The instant that a reading names shows it, or one past it. -/
theorem SpacedFrom.le_readingAt_instantAt (h : SpacedFrom low before cs)
    (w : Int) :
    w ≤ readingAt before cs (instantAt before cs w) := by
  induction cs generalizing low before with
  | nil =>
      simp only [instantAt, wallOffsetAt, readingAt, offsetAt]
      omega
  | cons c cs ih =>
      by_cases hw : w < c.instant + max before c.offset
      · rw [instantAt_of_lt hw]
        by_cases hearly : w - before < c.instant
        · rw [readingAt_of_lt hearly]
          omega
        · have hjump := h.jump_le_readingAt (Int.not_lt.mp hearly)
          omega
      · have hlate :=
          h.2.le_instantAt (i := c.instant) (w := w) (by omega) (by omega)
        rw [instantAt_of_le (Int.not_lt.mp hw), readingAt_of_le hlate]
        exact ih h.2

/-- Where the clock is at a reading before the instant that the reading names,
it has skipped the reading for good. -/
theorem SpacedFrom.skipped (h : SpacedFrom low before cs) {w t : Int}
    (ht : t < instantAt before cs w) (hw : w ≤ readingAt before cs t) {t' : Int}
    (hle : t ≤ t') : w < readingAt before cs t' := by
  induction cs generalizing low before with
  | nil =>
      simp only [instantAt, wallOffsetAt, readingAt, offsetAt] at *
      omega
  | cons c cs ih =>
      by_cases hlt : t < c.instant
      · rw [readingAt_of_lt hlt] at hw
        by_cases hhigh : w < c.instant + max before c.offset
        · rw [instantAt_of_lt hhigh] at ht
          omega
        · omega
      have hlt := Int.not_lt.mp hlt
      by_cases hhigh : w < c.instant + max before c.offset
      · rw [instantAt_of_lt hhigh] at ht
        have hjump := h.jump_le_readingAt (hlt.trans hle)
        omega
      · rw [instantAt_of_le (Int.not_lt.mp hhigh)] at ht
        rw [readingAt_of_le hlt] at hw
        rw [readingAt_of_le (hlt.trans hle)]
        exact ih h.2 ht hw

end Readings

/-! ## Zones -/

namespace ClockTable

/-- The clock of UTC. -/
def utc : ClockTable := ⟨0, [], trivial⟩

variable (clock : ClockTable)

/-- What the clock shows at an instant. -/
def reading (t : Int) : Int := readingAt clock.initial clock.changes t

/-- The instant that a reading names. -/
def instant (w : Int) : Int := instantAt clock.initial clock.changes w

theorem exists_spacedFrom :
    ∃ low, SpacedFrom low clock.initial clock.changes := by
  have hspaced := clock.spaced
  cases hcs : clock.changes with
  | nil => exact ⟨0, trivial⟩
  | cons c cs =>
      rw [hcs] at hspaced
      exact ⟨c.instant + min clock.initial c.offset, le_refl _, hspaced⟩

theorem reading_instant_reading (t : Int) :
    clock.reading (clock.instant (clock.reading t)) = clock.reading t := by
  obtain ⟨low, h⟩ := clock.exists_spacedFrom
  exact (h.instantAt_readingAt t).1

theorem instant_reading_le (t : Int) : clock.instant (clock.reading t) ≤ t := by
  obtain ⟨low, h⟩ := clock.exists_spacedFrom
  exact (h.instantAt_readingAt t).2

theorem le_reading_instant (w : Int) : w ≤ clock.reading (clock.instant w) := by
  obtain ⟨low, h⟩ := clock.exists_spacedFrom
  exact h.le_readingAt_instantAt w

theorem skipped {w t t' : Int} (ht : t < clock.instant w)
    (hw : w ≤ clock.reading t)
    (hle : t ≤ t') : w < clock.reading t' := by
  obtain ⟨low, h⟩ := clock.exists_spacedFrom
  exact h.skipped ht hw hle

/-- The clock shows the reading at some instant. -/
def Shows (w : Int) : Prop := ∃ t, clock.reading t = w

/-- Before the instant that a reading names, the clock is behind it. -/
theorem reading_lt {w t : Int} (hw : clock.Shows w) (ht : t < clock.instant w) :
    clock.reading t < w := by
  by_contra hle
  obtain ⟨t', rfl⟩ := hw
  have hnamed := clock.reading_instant_reading t'
  have hpast := clock.skipped ht (Int.not_lt.mp hle) (le_of_lt ht)
  omega

/-- The clock gets to the reading, or past it, at an instant. -/
structure GetsTo (w s : Int) : Prop where
  shown : w ≤ clock.reading s
  before : ∀ t < s, clock.reading t < w

variable {clock} in

/-- Far back, the clock shows every reading still ahead. -/
theorem exists_below (w : Int) : ∃ b, ∀ t, w ≤ clock.reading t → b ≤ t := by
  cases hcs : clock.changes with
  | nil =>
      refine ⟨w - clock.initial, fun t ht => ?_⟩
      simp only [reading, readingAt, hcs, offsetAt] at ht
      omega
  | cons c cs =>
      refine ⟨min c.instant (w - clock.initial), fun t ht => ?_⟩
      by_contra hlt
      rw [reading, hcs, readingAt_of_lt (by omega)] at ht
      omega

/-- A clock at a reading or past it got there before. -/
theorem exists_getsTo {w t : Int} (h : w ≤ clock.reading t) :
    ∃ s ≤ t, clock.GetsTo w s := by
  obtain ⟨s, hs, hleast⟩ :=
    Int.exists_least_of_bdd (clock.exists_below w) ⟨t, h⟩
  refine ⟨s, hleast t h, hs, fun u hu => ?_⟩
  by_contra hshown
  have hle := hleast u (Int.not_lt.mp hshown)
  omega

end ClockTable

end NodeLink.Lib
