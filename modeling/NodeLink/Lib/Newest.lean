import Mathlib.Data.List.MinMax
import Mathlib.Data.List.Sort

/-!
# The newest elements of a list

The `n` elements with the greatest keys. With keys that differ, an element is
among them exactly when fewer than `n` have a greater key. And the element with
the greatest key of all does not change when others are left out.
-/

namespace NodeLink.Lib

variable {α β : Type} [LinearOrder β] {key : α → β} {l : List α} {a : α} {n : Nat}

/-- `ORDER BY key DESC LIMIT n` -/
def newest (key : α → β) (n : Nat) (l : List α) : List α :=
  (l.insertionSort fun a b => key b ≤ key a).take n

theorem mem_take_iff_countP (hsorted : l.Pairwise fun a b => key b < key a)
    (ha : a ∈ l) : a ∈ l.take n ↔ l.countP (fun b => decide (key a < key b)) < n := by
  induction l generalizing n with
  | nil => cases ha
  | cons b l ih =>
      obtain ⟨hb, hsorted⟩ := List.pairwise_cons.mp hsorted
      cases n with
      | zero => exact iff_of_false List.not_mem_nil (Nat.not_lt_zero _)
      | succ n =>
          rw [List.take_succ_cons, List.countP_cons]
          rcases List.mem_cons.mp ha with rfl | hmem
          · -- The first element has no greater one.
            have hnone : l.countP (fun b => decide (key a < key b)) = 0 := by
              rw [List.countP_eq_zero]
              intro c hc
              rw [decide_eq_true_eq]
              exact lt_asymm (hb c hc)
            rw [hnone, decide_eq_false (lt_irrefl _)]
            exact iff_of_true List.mem_cons_self (Nat.succ_pos n)
          · have hlt := hb a hmem
            have hne : a ≠ b := fun h => lt_irrefl _ (h ▸ hlt)
            rw [List.mem_cons, or_iff_right hne, ih hsorted hmem, decide_eq_true hlt]
            exact (Nat.succ_lt_succ_iff).symm

/-- Among the newest are those that few are newer than. -/
theorem mem_newest_iff (hnodup : (l.map key).Nodup) :
    a ∈ newest key n l ↔
      a ∈ l ∧ l.countP (fun b => decide (key a < key b)) < n := by
  have hperm : (l.insertionSort fun a b => key b ≤ key a).Perm l :=
    List.perm_insertionSort _ l
  have hweak : (l.insertionSort fun a b => key b ≤ key a).Pairwise
      fun a b => key b ≤ key a :=
    List.pairwise_insertionSort _ l
  have hne : (l.insertionSort fun a b => key b ≤ key a).Pairwise
      fun a b => key a ≠ key b :=
    List.pairwise_map.mp ((hperm.map key).nodup_iff.mpr hnodup)
  have hsorted := hweak.imp₂ (fun a b hle hab => lt_of_le_of_ne hle (Ne.symm hab)) hne
  unfold newest
  by_cases ha : a ∈ l
  · rw [mem_take_iff_countP hsorted (hperm.mem_iff.mpr ha), hperm.countP_eq,
      and_iff_right ha]
  · exact iff_of_false (fun h => ha (hperm.subset (List.mem_of_mem_take h)))
      fun h => ha h.1

/-! ## The newest of all -/

theorem argmax_eq_some_iff (hnodup : (l.map key).Nodup) :
    l.argmax key = some a ↔ a ∈ l ∧ ∀ b ∈ l, key b ≤ key a := by
  classical
  rw [List.argmax_eq_some_iff]
  constructor
  · exact fun h => ⟨h.1, h.2.1⟩
  · intro h
    refine ⟨h.1, h.2, fun b hb hle => ?_⟩
    rw [List.inj_on_of_nodup_map hnodup hb h.1 (le_antisymm (h.2 b hb) hle)]

/-- The newest stays the newest exactly where it stays. -/
theorem argmax_filter_eq_iff (hnodup : (l.map key).Nodup) {p : α → Bool}
    (ha : l.argmax key = some a) :
    (l.filter p).argmax key = some a ↔ p a = true := by
  obtain ⟨hmem, hmax⟩ := (argmax_eq_some_iff hnodup).mp ha
  rw [argmax_eq_some_iff (hnodup.sublist (List.filter_sublist.map key)),
    List.mem_filter, and_iff_right hmem]
  exact and_iff_left fun b hb => hmax b (List.mem_filter.mp hb).1

end NodeLink.Lib
