import Mathlib.Data.List.Infix

/-!
# A status that follows its samples with a delay

A sample of another status than the current one does not count at once: the
status changes when as many samples of one status came in a row as the change
takes. What is kept of the samples is the current status, and the one that is
pending with the length of its row.
-/

namespace NodeLink.Lib

structure Debounced (σ : Type) where
  status : σ
  pending : Option (σ × Nat) := none
  deriving DecidableEq, Repr

namespace Debounced

variable {σ : Type} [DecidableEq σ] {required : σ → σ → Nat} {d d' : Debounced σ}
  {x s : σ} {history : List σ}

/-- The length of the row that a sample ends. -/
def count (d : Debounced σ) (x : σ) : Nat :=
  match d.pending with
  | none => 1
  | some (y, n) => if y = x then n + 1 else 1

/-- `required s x` samples in a row take the status from `s` to `x`. -/
def step (required : σ → σ → Nat) (d : Debounced σ) (x : σ) : Debounced σ :=
  if x = d.status then { status := d.status }
  else if required d.status x ≤ d.count x then { status := x }
  else { status := d.status, pending := some (x, d.count x) }

def run (required : σ → σ → Nat) (d : Debounced σ) (samples : List σ) :
    Debounced σ :=
  samples.foldl (step required) d

/-- The status after each of the samples. -/
def statuses (required : σ → σ → Nat) : Debounced σ → List σ → List σ
  | _, [] => []
  | d, x :: samples =>
    (step required d x).status :: statuses required (step required d x) samples

theorem run_cons {samples : List σ} :
    run required d (x :: samples) = run required (step required d x) samples :=
  rfl

theorem run_append {samples more : List σ} :
    run required d (samples ++ more) = run required (run required d samples) more :=
  List.foldl_append

theorem step_same (h : x = d.status) : step required d x = { status := d.status } :=
  if_pos h

theorem step_changes (hne : x ≠ d.status) (h : required d.status x ≤ d.count x) :
    step required d x = { status := x } := by
  rw [step, if_neg hne, if_pos h]

theorem step_waits (hne : x ≠ d.status) (h : ¬ required d.status x ≤ d.count x) :
    step required d x =
      { status := d.status, pending := some (x, d.count x) } := by
  rw [step, if_neg hne, if_neg h]

theorem step_status :
    (step required d x).status = d.status ∨ (step required d x).status = x := by
  unfold step
  split
  · exact .inl rfl
  · split
    · exact .inr rfl
    · exact .inl rfl

theorem statuses_getLast? {samples : List σ} (h : samples ≠ []) :
    (statuses required d samples).getLast? = some (d.run required samples).status := by
  induction samples generalizing d with
  | nil => exact absurd rfl h
  | cons x samples ih =>
      cases samples with
      | nil => rfl
      | cons y samples =>
          rw [run_cons, statuses, statuses, List.getLast?_cons_cons, ← statuses]
          exact ih (List.cons_ne_nil y samples)

/-! ## What is pending -/

/-- What is pending is what the samples so far end with, and not yet enough. -/
structure Counts (required : σ → σ → Nat) (d : Debounced σ) (history : List σ) :
    Prop where
  trailing : ∀ x, x ≠ d.status → ∀ n,
    List.replicate (n + 1) x <:+ history ↔
      ∃ c, d.pending = some (x, c) ∧ n + 1 ≤ c
  short : ∀ x c, d.pending = some (x, c) → c < required d.status x

omit [DecidableEq σ] in
theorem counts_start (s : σ) : Counts required { status := s } [] where
  trailing x _ n := by
    constructor
    · intro h
      have hlength := h.length_le
      rw [List.length_replicate] at hlength
      exact absurd hlength (Nat.not_succ_le_zero n)
    · rintro ⟨c, hc, _⟩
      cases hc
  short x c h := by cases h

omit [DecidableEq σ] in
theorem replicate_suffix_concat {n : Nat} {y : σ} :
    List.replicate (n + 1) y <:+ history ++ [x] ↔
      y = x ∧ List.replicate n y <:+ history := by
  rw [List.replicate_succ']
  constructor
  · intro h
    obtain ⟨front, hfront⟩ := h
    rw [← List.append_assoc] at hfront
    obtain ⟨hinit, hlast⟩ := List.append_inj' hfront rfl
    exact ⟨List.head_eq_of_cons_eq hlast, front, hinit⟩
  · rintro ⟨rfl, front, rfl⟩
    exact ⟨front, by rw [List.append_assoc]⟩

/-- The row that a sample ends is as long as the count says. -/
theorem Counts.replicate_suffix (h : Counts required d history) (hne : x ≠ d.status)
    (n : Nat) :
    List.replicate (n + 1) x <:+ history ++ [x] ↔ n + 1 ≤ d.count x := by
  rw [replicate_suffix_concat, and_iff_right rfl]
  cases n with
  | zero =>
      refine iff_of_true (List.nil_suffix) ?_
      unfold count
      split
      · exact Nat.le_refl _
      · split <;> omega
  | succ n =>
      rw [h.trailing x hne n, count]
      cases hpending : d.pending with
      | none => simp
      | some p =>
          obtain ⟨y, c⟩ := p
          by_cases hy : y = x
          · simp [hy]
          · simp [hy]

theorem Counts.step (h : Counts required d history) (x : σ) :
    Counts required (d.step required x) (history ++ [x]) := by
  by_cases hsame : x = d.status
  · rw [step_same hsame]
    refine ⟨fun y hy n => ?_, fun y c hc => by cases hc⟩
    rw [replicate_suffix_concat, hsame]
    simp [show y ≠ d.status from hy]
  · by_cases henough : required d.status x ≤ d.count x
    · rw [step_changes hsame henough]
      refine ⟨fun y hy n => ?_, fun y c hc => by cases hc⟩
      rw [replicate_suffix_concat]
      simp [show y ≠ x from hy]
    · rw [step_waits hsame henough]
      refine ⟨fun y hy n => ?_, fun y c hc => ?_⟩
      · by_cases hyx : y = x
        · rw [hyx, h.replicate_suffix hsame]
          simp
        · rw [replicate_suffix_concat]
          simp [hyx, Ne.symm hyx]
      · cases hc
        exact Nat.lt_of_not_le henough

theorem Counts.run (h : Counts required d history) (samples : List σ) :
    Counts required (d.run required samples) (history ++ samples) := by
  induction samples generalizing d history with
  | nil => rwa [List.append_nil]
  | cons x samples ih =>
      rw [run_cons, List.append_cons]
      exact ih (h.step x)

/-! ## When the status changes -/

/-- A sample changes the status exactly when it ends a row of samples that is
long enough. -/
theorem Counts.step_status_iff (h : Counts required d history)
    (hpos : ∀ s x, 0 < required s x) (hne : x ≠ d.status) :
    (d.step required x).status = x ↔
      List.replicate (required d.status x) x <:+ history ++ [x] := by
  obtain ⟨n, hn⟩ := Nat.exists_eq_add_of_lt (hpos d.status x)
  rw [Nat.zero_add] at hn
  rw [hn, h.replicate_suffix hne, ← hn]
  by_cases henough : required d.status x ≤ d.count x
  · rw [step_changes hne henough]
    exact iff_of_true rfl henough
  · rw [step_waits hne henough]
    exact iff_of_false hne.symm henough

/-- Samples of a set keep the status in it. -/
theorem run_status_mem {S : σ → Prop} {samples : List σ} (hd : S d.status)
    (hsamples : ∀ x ∈ samples, S x) : S (d.run required samples).status := by
  induction samples generalizing d with
  | nil => exact hd
  | cons x samples ih =>
      rw [List.forall_mem_cons] at hsamples
      refine ih ?_ hsamples.2
      rcases @step_status σ _ required d x with hs | hs
      · rw [hs]
        exact hd
      · rw [hs]
        exact hsamples.1

/-- Samples of a set that the status is not in take it there exactly when one of
them ends a row that is long enough. -/
theorem Counts.run_enters_iff (h : Counts required d history)
    (hpos : ∀ s x, 0 < required s x) {S : σ → Prop} {n : Nat} {samples : List σ}
    (hd : ¬ S d.status) (hsamples : ∀ x ∈ samples, S x)
    (hn : ∀ x, S x → required d.status x = n) :
    S (d.run required samples).status ↔
      ∃ k < samples.length, ∃ x,
        List.replicate n x <:+ history ++ samples.take (k + 1) := by
  induction samples generalizing d history with
  | nil =>
      refine iff_of_false hd ?_
      rintro ⟨k, hk, _⟩
      exact absurd hk (Nat.not_lt_zero k)
  | cons x samples ih =>
      rw [List.forall_mem_cons] at hsamples
      have hne : x ≠ d.status := fun he => hd (he ▸ hsamples.1)
      have hchange := h.step_status_iff hpos hne
      rw [hn x hsamples.1] at hchange
      by_cases hx : (d.step required x).status = x
      · refine iff_of_true ?_ ⟨0, Nat.succ_pos _, x, hchange.mp hx⟩
        rw [run_cons]
        exact run_status_mem (by rw [hx]; exact hsamples.1) hsamples.2
      · have hkept : (d.step required x).status = d.status :=
          (@step_status σ _ required d x).resolve_right hx
        rw [run_cons, ih (h.step x) (by rwa [hkept]) hsamples.2 (by rwa [hkept])]
        constructor
        · rintro ⟨k, hk, y, hy⟩
          refine ⟨k + 1, Nat.succ_lt_succ hk, y, ?_⟩
          rwa [List.take_succ_cons, List.append_cons]
        · rintro ⟨k, hk, y, hy⟩
          rw [List.take_succ_cons, List.append_cons] at hy
          cases k with
          | zero =>
              -- The row would end with `x`, which then changed the status.
              have hrow : List.replicate n y <:+ history ++ [x] := by
                rwa [List.take_zero, List.append_nil] at hy
              obtain ⟨m, hm⟩ := Nat.exists_eq_add_of_lt (hn x hsamples.1 ▸ hpos d.status x)
              rw [Nat.zero_add] at hm
              have hyx : y = x := by
                rw [hm] at hrow
                exact (replicate_suffix_concat.mp hrow).1
              exact absurd (hchange.mpr (hyx ▸ hrow)) hx
          | succ k => exact ⟨k, Nat.lt_of_succ_lt_succ hk, y, hy⟩

/-- Enough samples of one status in a row take the status there, whatever it
was. -/
theorem Counts.run_replicate (h : Counts required d history) {n : Nat}
    (hn : ∀ s, required s x ≤ n + 1) :
    (d.run required (List.replicate (n + 1) x)).status = x := by
  by_contra hne
  have hrun := h.run (List.replicate (n + 1) x)
  obtain ⟨c, hpending, hle⟩ :=
    (hrun.trailing x (Ne.symm hne) n).mp ( List.suffix_append _ _)
  have hshort := hrun.short x c hpending
  have hbound := hn (d.run required (List.replicate (n + 1) x)).status
  omega

end Debounced

end NodeLink.Lib
