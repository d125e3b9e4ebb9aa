import Mathlib.Order.WellFounded
import Mathlib.Order.Basic

/-!
# Choosing greedily

Things are gone through one after the other, and each that is eligible is
chosen unless something chosen before excludes it. Instants are chosen so when
no two of them may lie closer together than an interval.
-/

namespace NodeLink.Lib

section Choice

variable {ι : Type} {before : ι → ι → Prop} {eligible : ι → Prop} {x : ι}

/-- What is chosen: that which is eligible, and for which nothing before it,
which would exclude it, is chosen. -/
def Chosen (hwf : WellFounded before) (eligible : ι → Prop) : ι → Prop :=
  hwf.fix fun x chosen => eligible x ∧ ∀ y, (h : before y x) → ¬ chosen y h

theorem chosen_iff (hwf : WellFounded before) :
    Chosen hwf eligible x ↔
      eligible x ∧ ∀ y, before y x → ¬ Chosen hwf eligible y := by
  rw [Chosen, hwf.fix_eq]

end Choice

/-! ## The latest of a set of numbers -/

section Latest

variable {S : Nat → Prop} {n j : Nat}

/-- The greatest number up to `n` that is in the set. -/
structure Latest (S : Nat → Prop) (n j : Nat) : Prop where
  mem : S j
  le : j ≤ n
  greatest : ∀ i ≤ n, S i → i ≤ j

theorem Latest.succ_mem (h : S (n + 1)) : Latest S (n + 1) (n + 1) :=
  ⟨h, le_refl _, fun _ hi _ => hi⟩

theorem Latest.succ_of_not_mem (hlatest : Latest S n j) (h : ¬ S (n + 1)) :
    Latest S (n + 1) j := by
  refine ⟨hlatest.mem, Nat.le_succ_of_le hlatest.le, fun i hi hS => ?_⟩
  rcases Nat.le_succ_iff.mp hi with hi | rfl
  · exact hlatest.greatest i hi hS
  · exact absurd hS h

end Latest

/-! ## Instants kept apart -/

section Apart

variable {time : Nat → Int} {wait d t : Int} {eligible S : Nat → Prop}
  {n j : Nat}

/-- The earlier instant is less than the interval before the later one. -/
def Crowds (time : Nat → Int) (wait : Int) (i j : Nat) : Prop :=
  i < j ∧ time j - time i < wait

theorem wellFounded_crowds (time : Nat → Int) (wait : Int) :
    WellFounded (Crowds time wait) :=
  Subrelation.wf (fun h => h.1) Nat.lt_wfRel.wf

/-- The instants that are chosen, the first ones first, so that none comes
sooner than the interval after another. -/
def KeptApart (time : Nat → Int) (wait : Int) (eligible : Nat → Prop) :
    Nat → Prop :=
  Chosen (wellFounded_crowds time wait) eligible

/-- Of the instants of a set, the latest one is the closest. -/
theorem Latest.near_iff (hlatest : Latest S n j)
    (hsorted : ∀ i k, i ≤ k → k ≤ n → time i ≤ time k) :
    (∃ i ≤ n, S i ∧ t - time i < d) ↔ t - time j < d := by
  constructor
  · rintro ⟨i, hi, hS, hnear⟩
    have hle := hsorted i j (hlatest.greatest i hi hS) hlatest.le
    omega
  · exact fun h => ⟨j, hlatest.le, hlatest.mem, h⟩

/-- The next instant is chosen when it comes late enough after the latest
choice. -/
theorem keptApart_succ_iff (hlatest : Latest (KeptApart time wait eligible) n j)
    (hsorted : ∀ i k, i ≤ k → k ≤ n → time i ≤ time k) :
    KeptApart time wait eligible (n + 1) ↔
      eligible (n + 1) ∧ wait ≤ time (n + 1) - time j := by
  rw [← not_lt, ← hlatest.near_iff hsorted, KeptApart, chosen_iff]
  refine and_congr_right fun _ => ?_
  constructor
  · rintro hfree ⟨i, hi, hS, hnear⟩
    exact hfree i ⟨Nat.lt_succ_of_le hi, hnear⟩ hS
  · rintro hnone i ⟨hi, hnear⟩ hS
    exact hnone ⟨i, Nat.le_of_lt_succ hi, hS, hnear⟩

end Apart

end NodeLink.Lib
