import Mathlib.Data.List.Basic

/-!
# Numbered lists

A stream is a list whose elements carry consecutive numbers. What stands after
a cursor is numbered from that cursor again, so batches that are read one
after the other put the stream together without a gap and without a repeat.
-/

namespace NodeLink.Lib

variable {α : Type}

/-- The elements carry the numbers that follow `n`. -/
def NumberedFrom (num : α → Int) : Int → List α → Prop
  | _, [] => True
  | n, a :: l => num a = n + 1 ∧ NumberedFrom num (n + 1) l

/-- What is numbered above `c`. -/
def above (num : α → Int) (c : Int) (l : List α) : List α :=
  l.filter fun a => decide (c < num a)

/-- What is numbered above `c` and up to `b`. -/
def between (num : α → Int) (c b : Int) (l : List α) : List α :=
  l.filter fun a => decide (c < num a ∧ num a ≤ b)

/-- The number of the last element, or `c` when there is none. -/
def lastNumber (num : α → Int) (c : Int) (l : List α) : Int :=
  (l.getLast?.map num).getD c

variable {num : α → Int} {n c b : Int} {l m : List α}

theorem NumberedFrom.bounds (h : NumberedFrom num n l) {a : α} (ha : a ∈ l) :
    n < num a ∧ num a ≤ n + l.length := by
  induction l generalizing n with
  | nil => cases ha
  | cons x l ih =>
      obtain ⟨hx, hl⟩ := h
      rw [List.length_cons]
      rcases List.mem_cons.mp ha with rfl | hmem
      · omega
      · have := ih hl hmem
        omega

theorem numberedFrom_append : NumberedFrom num n (l ++ m) ↔
    NumberedFrom num n l ∧ NumberedFrom num (n + l.length) m := by
  induction l generalizing n with
  | nil => simp [NumberedFrom]
  | cons x l ih =>
      have hlen : n + ((x :: l).length : Int) = n + 1 + l.length := by
        rw [List.length_cons]
        omega
      rw [List.cons_append, hlen]
      simp only [NumberedFrom, ih, and_assoc]

theorem numberedFrom_map {β : Type} {f : β → α} {l : List β} :
    NumberedFrom num n (l.map f) ↔ NumberedFrom (num ∘ f) n l := by
  induction l generalizing n with
  | nil => exact Iff.rfl
  | cons b l ih => exact and_congr_right fun _ => ih

theorem NumberedFrom.take (h : NumberedFrom num n l) (k : Nat) :
    NumberedFrom num n (l.take k) := by
  rw [← List.take_append_drop k l, numberedFrom_append] at h
  exact h.1

theorem NumberedFrom.pairwise (h : NumberedFrom num n l) :
    l.Pairwise fun a b => num a < num b := by
  induction l generalizing n with
  | nil => exact List.Pairwise.nil
  | cons x l ih =>
      obtain ⟨hx, hl⟩ := h
      refine List.Pairwise.cons (fun a ha => ?_) (ih hl)
      rw [hx]
      exact (hl.bounds ha).1

theorem NumberedFrom.above_eq_self (h : NumberedFrom num n l) (hc : c ≤ n) :
    above num c l = l := by
  refine List.filter_eq_self.mpr fun a ha => decide_eq_true ?_
  have := (h.bounds ha).1
  omega

theorem above_append_of_le (hm : ∀ a ∈ m, num a ≤ c) :
    above num c (m ++ l) = above num c l := by
  have hnone : above num c m = [] := by
    refine List.filter_eq_nil_iff.mpr fun a ha => ?_
    have := hm a ha
    rw [decide_eq_true_eq]
    omega
  rw [above, List.filter_append, ← above, hnone, List.nil_append, ← above]

/-- What stands after a cursor inside the list is numbered from the cursor. -/
theorem NumberedFrom.above (h : NumberedFrom num n l) (hn : n ≤ c)
    (hc : c ≤ n + l.length) : NumberedFrom num c (above num c l) ∧
      c + (Lib.above num c l).length = n + l.length := by
  induction l generalizing n with
  | nil =>
      rw [List.length_nil] at hc
      exact ⟨trivial, by simp [Lib.above]; omega⟩
  | cons a l ih =>
      by_cases heq : c = n
      · rw [h.above_eq_self (Int.le_of_eq heq), heq]
        exact ⟨h, rfl⟩
      · obtain ⟨ha, hl⟩ := h
        rw [List.length_cons] at hc ⊢
        have hskip : Lib.above num c (a :: l) = Lib.above num c l :=
          List.filter_cons_of_neg (by rw [decide_eq_true_eq]; omega)
        rw [hskip]
        obtain ⟨hfrom, hlen⟩ := ih hl (by omega) (by omega)
        exact ⟨hfrom, by omega⟩

theorem NumberedFrom.take_eq (h : NumberedFrom num c l) (k : Nat)
    (hk : k ≤ l.length) : l.take k = between num c (c + k) l := by
  induction l generalizing c k with
  | nil => simp [between]
  | cons a l ih =>
      obtain ⟨ha, hl⟩ := h
      cases k with
      | zero =>
          symm
          rw [List.take_zero]
          refine List.filter_eq_nil_iff.mpr fun x hx => ?_
          have := NumberedFrom.bounds (l := a :: l) ⟨ha, hl⟩ hx
          rw [decide_eq_true_eq]
          omega
      | succ k =>
          have hhead : between num c (c + (k + 1 : Nat)) (a :: l) =
              a :: between num c (c + (k + 1 : Nat)) l :=
            List.filter_cons_of_pos (by rw [decide_eq_true_eq]; omega)
          have htail : between num c (c + (k + 1 : Nat)) l =
              between num (c + 1) (c + 1 + k) l := by
            refine List.filter_congr fun x hx => ?_
            have := (hl.bounds hx).1
            rw [decide_eq_decide]
            omega
          rw [List.take_succ_cons, hhead, htail]
          rw [ih hl k (Nat.le_of_succ_le_succ hk)]

theorem NumberedFrom.lastNumber_eq (h : NumberedFrom num c l) :
    lastNumber num c l = c + l.length := by
  rcases List.eq_nil_or_concat' l with rfl | ⟨l, a, rfl⟩
  · simp [lastNumber]
  · obtain ⟨-, hlast, -⟩ := numberedFrom_append.mp h
    rw [lastNumber, List.getLast?_concat, List.length_append]
    simp only [Option.map_some, Option.getD_some, List.length_singleton]
    omega

/-- The first elements past a cursor are a stretch of the list. -/
theorem take_above_eq (h : NumberedFrom num c (above num c l)) (k : Nat)
    (hk : k ≤ (above num c l).length) :
    (above num c l).take k = between num c (c + k) l := by
  rw [h.take_eq k hk, between, above, List.filter_filter, between]
  refine List.filter_congr fun x _ => ?_
  rw [← Bool.decide_and, decide_eq_decide]
  omega

/-- A batch read at a cursor is the stretch from the cursor to the batch's last
number. -/
theorem take_above_eq_lastNumber (h : NumberedFrom num c (above num c l))
    (k : Nat) : (above num c l).take k =
      between num c (lastNumber num c ((above num c l).take k)) l := by
  rw [(h.take k).lastNumber_eq, List.length_take,
    ← take_above_eq h _ (Nat.min_le_right _ _), ← List.take_eq_take_min]

theorem NumberedFrom.between_eq_nil (h : NumberedFrom num n l) (hb : b ≤ n) :
    between num c b l = [] := by
  refine List.filter_eq_nil_iff.mpr fun a ha => ?_
  have := (h.bounds ha).1
  rw [decide_eq_true_eq]
  omega

/-- Two stretches that meet are one. -/
theorem NumberedFrom.between_append (h : NumberedFrom num n l) {d : Int}
    (hcb : c ≤ b) (hbd : b ≤ d) :
    between num c b l ++ between num b d l = between num c d l := by
  induction l generalizing n with
  | nil => rfl
  | cons a l ih =>
      obtain ⟨ha, hl⟩ := h
      have hrest := ih hl
      rw [between, between, between] at hrest ⊢
      rcases Int.lt_or_le c (num a) with hc | hc
      · rcases Int.lt_or_le b (num a) with hb | hb
        · -- The whole rest stands after the meeting point.
          have hempty : between num c b (a :: l) = [] :=
            NumberedFrom.between_eq_nil (n := n) ⟨ha, hl⟩ (by omega)
          rw [← between, hempty, List.nil_append]
          refine List.filter_congr fun x hx => ?_
          have := (NumberedFrom.bounds (n := n) (l := a :: l) ⟨ha, hl⟩ hx).1
          rw [decide_eq_decide]
          omega
        · rw [List.filter_cons_of_pos (by rw [decide_eq_true_eq]; omega),
            List.filter_cons_of_neg (by rw [decide_eq_true_eq]; omega),
            List.filter_cons_of_pos (by rw [decide_eq_true_eq]; omega),
            List.cons_append, hrest]
      · rw [List.filter_cons_of_neg (by rw [decide_eq_true_eq]; omega),
          List.filter_cons_of_neg (by rw [decide_eq_true_eq]; omega),
          List.filter_cons_of_neg (by rw [decide_eq_true_eq]; omega), hrest]

end NodeLink.Lib
