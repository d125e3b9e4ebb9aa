import Mathlib.Data.Nat.Basic

/-!
# Scaling down to a limit

A count that is scaled down until what it measures fits: each time by as much
as the limit is exceeded, and by at least one. How many are left, for any way
to measure.
-/

namespace NodeLink.Lib

variable {size : Nat → Nat} {limit n : Nat}

/-- How many of `n` are left, where `size k` is what `k` of them take. -/
def scaleDown (size : Nat → Nat) (limit n : Nat) : Nat :=
  if n = 0 ∨ size n ≤ limit then n
  else scaleDown size limit (min (n * limit / size n) (n - 1))
termination_by n
decreasing_by omega

theorem scaleDown_of_fits (h : size n ≤ limit) :
    scaleDown size limit n = n := by
  rw [scaleDown, if_pos (Or.inr h)]

theorem scaleDown_step (hpos : n ≠ 0) (h : ¬ size n ≤ limit) :
    scaleDown size limit n =
      scaleDown size limit (min (n * limit / size n) (n - 1)) := by
  rw [scaleDown, if_neg (not_or.mpr ⟨hpos, h⟩)]

theorem scaleDown_le : scaleDown size limit n ≤ n := by
  induction n using Nat.strongRecOn with
  | ind n ih =>
      by_cases hpos : n = 0
      · rw [scaleDown, if_pos (Or.inl hpos)]
      by_cases h : size n ≤ limit
      · rw [scaleDown_of_fits h]
      · have hless : min (n * limit / size n) (n - 1) < n := by omega
        rw [scaleDown_step hpos h]
        exact Nat.le_trans (ih _ hless) (Nat.le_of_lt hless)

/-- What is left fits, where nothing fits. -/
theorem size_scaleDown_le (hzero : size 0 ≤ limit) :
    size (scaleDown size limit n) ≤ limit := by
  induction n using Nat.strongRecOn with
  | ind n ih =>
      by_cases hpos : n = 0
      · rw [scaleDown, if_pos (Or.inl hpos), hpos]
        exact hzero
      by_cases h : size n ≤ limit
      · rw [scaleDown_of_fits h]
        exact h
      · rw [scaleDown_step hpos h]
        exact ih _ (by omega)

/-- Only what at most `n` take is looked at. -/
theorem scaleDown_congr {size' : Nat → Nat} (h : ∀ k ≤ n, size k = size' k) :
    scaleDown size limit n = scaleDown size' limit n := by
  induction n using Nat.strongRecOn with
  | ind n ih =>
      by_cases hpos : n = 0
      · rw [scaleDown, if_pos (Or.inl hpos), scaleDown, if_pos (Or.inl hpos)]
      have hn : size n = size' n := h n (Nat.le_refl n)
      by_cases hfits : size n ≤ limit
      · rw [scaleDown_of_fits hfits, scaleDown_of_fits (hn ▸ hfits)]
      · have hfits' : ¬ size' n ≤ limit := hn ▸ hfits
        rw [scaleDown_step hpos hfits, scaleDown_step hpos hfits', ← hn]
        exact ih _ (by omega) fun k hk => h k (by omega)

end NodeLink.Lib
