import Mathlib

/-!
# Sliding windows over a log of times

A window slides over a log: at a clock reading it holds what lies behind a
cutoff. A queue from whose front the times up to the cutoff are popped stands
for the log as long as the cutoff never goes back: the two agree behind every
later one. And a log whose entries each found fewer than `n` others behind
their own cutoff has at most `n` entries in any window.
-/

namespace NodeLink.Lib

variable {T : Type} [LinearOrder T] {c d : T} {l q : List T}

/-- What lies behind the cutoff. -/
def after (c : T) (l : List T) : List T := l.filter fun t => decide (c < t)

/-- What is left when the times up to the cutoff are popped from the front. -/
def popped (c : T) (l : List T) : List T := l.dropWhile fun t => decide (t ≤ c)

@[simp] theorem after_nil : after c ([] : List T) = [] := rfl

theorem after_append (l m : List T) :
    after c (l ++ m) = after c l ++ after c m := List.filter_append l m

theorem after_after (h : c ≤ d) (l : List T) :
    after d (after c l) = after d l := by
  unfold after
  rw [List.filter_filter]
  refine List.filter_congr fun t _ => ?_
  rw [← Bool.decide_and, decide_eq_decide]
  exact ⟨fun ht => ht.1, fun ht => ⟨ht, lt_of_le_of_lt h ht⟩⟩

theorem length_after_anti (l : List T) (h : c ≤ d) :
    (after d l).length ≤ (after c l).length := by
  rw [← after_after h]
  exact List.length_filter_le _ _

/-- Popping from the front of a log in order leaves what lies behind. -/
theorem popped_eq_after (h : l.Pairwise (· ≤ ·)) : popped c l = after c l := by
  induction l with
  | nil => rfl
  | cons t l ih =>
      obtain ⟨hfirst, hrest⟩ := List.pairwise_cons.mp h
      unfold popped after at ih ⊢
      by_cases ht : t ≤ c
      · rw [List.dropWhile_cons, if_pos (decide_eq_true ht), ih hrest,
          List.filter_cons_of_neg (by simpa using ht)]
      · have hall : ∀ s ∈ t :: l, decide (c < s) = true := by
          intro s hs
          refine decide_eq_true (lt_of_lt_of_le (not_le.mp ht) ?_)
          rcases List.mem_cons.mp hs with rfl | hs
          · exact le_rfl
          · exact hfirst s hs
        rw [List.dropWhile_cons, if_neg (by simpa using ht),
          List.filter_eq_self.mpr hall]

/-- The queue and the log agree behind every cutoff from `c` on. -/
def AgreeFrom (c : T) (q l : List T) : Prop :=
  ∀ d, c ≤ d → after d q = after d l

theorem AgreeFrom.refl (c : T) (l : List T) : AgreeFrom c l l := fun _ _ => rfl

theorem AgreeFrom.mono (h : AgreeFrom c q l) (hcd : c ≤ d) : AgreeFrom d q l :=
  fun e hde => h e (le_trans hcd hde)

/-- Popping at a cutoff is seen behind no later one. -/
theorem AgreeFrom.popped (h : AgreeFrom c q l) (hq : q.Pairwise (· ≤ ·)) :
    AgreeFrom c (popped c q) l := by
  intro d hcd
  rw [popped_eq_after hq, after_after hcd]
  exact h d hcd

theorem AgreeFrom.append (h : AgreeFrom c q l) (m : List T) :
    AgreeFrom c (q ++ m) (l ++ m) := by
  intro d hcd
  rw [after_append, after_append, h d hcd]

/-- Every entry found fewer than `n` before it behind its own cutoff. -/
def Sparse (cutoff : T → T) (n : Int) (l : List T) : Prop :=
  ∀ pre t post, l = pre ++ t :: post → ((after (cutoff t) pre).length : Int) < n

theorem sparse_nil (cutoff : T → T) (n : Int) : Sparse cutoff n [] := by
  intro pre t post h
  have hne := List.append_ne_nil_of_right_ne_nil pre (List.cons_ne_nil t post)
  exact absurd h.symm hne

theorem sparse_concat {cutoff : T → T} {n : Int} {t : T} :
    Sparse cutoff n (l ++ [t]) ↔
      Sparse cutoff n l ∧ ((after (cutoff t) l).length : Int) < n := by
  constructor
  · intro h
    refine ⟨fun pre s post hl => h pre s (post ++ [t]) ?_, h l t [] rfl⟩
    rw [hl, List.append_assoc, List.cons_append]
  · rintro ⟨hl, ht⟩ pre s post heq
    rcases List.eq_nil_or_concat' post with rfl | ⟨post, u, rfl⟩
    · obtain ⟨rfl, hts⟩ := List.append_inj' heq rfl
      obtain rfl := List.singleton_inj.mp hts
      exact ht
    · rw [← List.cons_append, ← List.append_assoc] at heq
      exact hl pre s post (List.append_inj' heq rfl).1

/-- What lies in the window that ends at `u`. -/
def window (cutoff : T → T) (u : T) (l : List T) : List T :=
  l.filter fun s => decide (cutoff u < s ∧ s ≤ u)

theorem window_length_le_after {cutoff : T → T} (hmono : Monotone cutoff)
    {t u : T} (htu : t ≤ u) (l : List T) :
    (window cutoff u l).length ≤ (after (cutoff t) l).length := by
  have hsub : window cutoff u l = window cutoff u (after (cutoff t) l) := by
    unfold window after
    rw [List.filter_filter]
    refine List.filter_congr fun s _ => ?_
    rw [← Bool.decide_and, decide_eq_decide]
    exact ⟨fun hs => ⟨hs, lt_of_le_of_lt (hmono htu) hs.1⟩, fun hs => hs.1⟩
  rw [hsub]
  exact List.length_filter_le _ _

/-- No window holds more than `n`: the last entry in it found the others. -/
theorem Sparse.window_length_le {cutoff : T → T} (hmono : Monotone cutoff)
    {n : Int} (hn : 0 ≤ n) (h : Sparse cutoff n l) (u : T) :
    ((window cutoff u l).length : Int) ≤ n := by
  induction l using List.reverseRecOn with
  | nil => exact hn
  | append_singleton l t ih =>
      obtain ⟨hl, ht⟩ := sparse_concat.mp h
      have hwindow : window cutoff u (l ++ [t]) =
          window cutoff u l ++ window cutoff u [t] := List.filter_append _ _
      rw [hwindow, List.length_append]
      by_cases hin : cutoff u < t ∧ t ≤ u
      · have hone : window cutoff u [t] = [t] :=
          List.filter_cons_of_pos (decide_eq_true hin)
        have hle := window_length_le_after hmono hin.2 l
        rw [hone, List.length_singleton]
        omega
      · have hnone : window cutoff u [t] = [] :=
          List.filter_cons_of_neg (by simpa using hin)
        have := ih hl
        rw [hnone, List.length_nil]
        omega

end NodeLink.Lib
