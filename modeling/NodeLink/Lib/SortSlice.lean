import Mathlib.Data.List.Sort

/-!
# Sorting by a comparison

What a sort promises that is not stable and is given a comparison: a
rearrangement, and where the comparison is a strict weak order of the elements
one in which no element is less than one before it. There is only one such
arrangement exactly where the comparison tells every two elements apart.
-/

namespace NodeLink.Lib

variable {α : Type} {less : α → α → Bool} {xs ys zs : List α} {a b : α}

/-- A strict weak order of the elements of a list. -/
structure StrictWeakOn (less : α → α → Bool) (xs : List α) : Prop where
  irrefl : ∀ a ∈ xs, less a a = false
  trans : ∀ a ∈ xs, ∀ b ∈ xs, ∀ c ∈ xs,
    less a b = true → less b c = true → less a c = true
  negTrans : ∀ a ∈ xs, ∀ b ∈ xs, ∀ c ∈ xs,
    less a b = false → less b c = false → less a c = false

/-- A strict order of the elements in which every two are ordered. -/
structure StrictTotalOn (less : α → α → Bool) (xs : List α) : Prop where
  irrefl : ∀ a ∈ xs, less a a = false
  trans : ∀ a ∈ xs, ∀ b ∈ xs, ∀ c ∈ xs,
    less a b = true → less b c = true → less a c = true
  total : ∀ a ∈ xs, ∀ b ∈ xs, a ≠ b → less a b = true ∨ less b a = true

/-- What `sort.Slice` may leave of a list. -/
structure SortSlice (less : α → α → Bool) (xs ys : List α) : Prop where
  perm : ys.Perm xs
  sorted : StrictWeakOn less xs → ys.Pairwise fun a b => less b a = false

theorem StrictWeakOn.asymm (h : StrictWeakOn less xs) (ha : a ∈ xs) (hb : b ∈ xs)
    (hab : less a b = true) : less b a = false := by
  cases hba : less b a with
  | false => rfl
  | true =>
      have haa := h.trans a ha b hb a ha hab hba
      rw [h.irrefl a ha] at haa
      exact absurd haa Bool.false_ne_true

theorem StrictTotalOn.weak (h : StrictTotalOn less xs) : StrictWeakOn less xs where
  irrefl := h.irrefl
  trans := h.trans
  negTrans a ha b hb c hc hab hbc := by
    cases hac : less a c with
    | false => rfl
    | true =>
        -- `b` is one of the two, or before `a`, or after `c`.
        by_cases heq : b = c
        · rw [heq, hac] at hab
          exact hab
        · have hcb : less c b = true :=
            (h.total b hb c hc heq).resolve_left (by rw [hbc]; exact Bool.false_ne_true)
          rw [← hab]
          exact (h.trans a ha c hc b hb hac hcb).symm

theorem StrictTotalOn.of_subset (h : StrictTotalOn less ys) (hsub : xs ⊆ ys) :
    StrictTotalOn less xs where
  irrefl a ha := h.irrefl a (hsub ha)
  trans a ha b hb c hc := h.trans a (hsub ha) b (hsub hb) c (hsub hc)
  total a ha b hb := h.total a (hsub ha) b (hsub hb)

theorem StrictWeakOn.of_subset (h : StrictWeakOn less ys) (hsub : xs ⊆ ys) :
    StrictWeakOn less xs where
  irrefl a ha := h.irrefl a (hsub ha)
  trans a ha b hb c hc := h.trans a (hsub ha) b (hsub hb) c (hsub hc)
  negTrans a ha b hb c hc := h.negTrans a (hsub ha) b (hsub hb) c (hsub hc)

/-- The arrangement that is sorted does not matter. -/
theorem SortSlice.of_perm (h : SortSlice less xs ys) (hperm : xs.Perm zs) :
    SortSlice less zs ys :=
  ⟨h.perm.trans hperm, fun hweak => h.sorted (hweak.of_subset hperm.subset)⟩

/-- Only one arrangement is sorted where every two elements are told apart. -/
theorem SortSlice.unique (h : StrictTotalOn less xs) (hys : SortSlice less xs ys)
    (hzs : SortSlice less xs zs) : ys = zs := by
  refine List.Perm.eq_of_pairwise (fun a b ha hb hba hab => ?_) (hys.sorted h.weak)
    (hzs.sorted h.weak) (hys.perm.trans hzs.perm.symm)
  by_contra hne
  rcases h.total a (hys.perm.subset ha) b (hzs.perm.subset hb) hne with hless | hless
  · rw [hless] at hab
    exact absurd hab.symm Bool.false_ne_true
  · rw [hless] at hba
    exact absurd hba.symm Bool.false_ne_true

/-! ## Different arrangements -/

/-- The order `less` refuses, of the elements of a list. -/
def notLess (less : α → α → Bool) (xs : List α) (a b : { a // a ∈ xs }) : Bool :=
  !less b.1 a.1

theorem StrictWeakOn.notLess_trans (h : StrictWeakOn less xs)
    (a b c : { a // a ∈ xs }) (hab : notLess less xs a b = true)
    (hbc : notLess less xs b c = true) : notLess less xs a c = true := by
  unfold notLess at hab hbc ⊢
  rw [Bool.not_eq_true'] at hab hbc ⊢
  exact h.negTrans c.1 c.2 b.1 b.2 a.1 a.2 hbc hab

theorem StrictWeakOn.notLess_total (h : StrictWeakOn less xs)
    (a b : { a // a ∈ xs }) : (notLess less xs a b || notLess less xs b a) = true := by
  unfold notLess
  cases hab : less a.1 b.1 with
  | false => exact Bool.or_true _
  | true =>
      rw [h.asymm a.2 b.2 hab]
      rfl

/-- Any arrangement may be handed to a stable sort. -/
theorem StrictWeakOn.sortSlice_mergeSort (h : StrictWeakOn less xs)
    {l : List { a // a ∈ xs }} (hl : l.Perm xs.attach) :
    SortSlice less xs ((l.mergeSort (notLess less xs)).map (·.1)) where
  perm := by
    have hperm := ((List.mergeSort_perm l (notLess less xs)).trans hl).map (·.1)
    rwa [List.attach_map_subtype_val] at hperm
  sorted _ := by
    refine List.pairwise_map.mpr ?_
    refine (List.pairwise_mergeSort h.notLess_trans h.notLess_total l).imp ?_
    intro a b hab
    rwa [notLess, Bool.not_eq_true'] at hab

theorem exists_sortSlice (less : α → α → Bool) (xs : List α) :
    ∃ ys, SortSlice less xs ys := by
  by_cases h : StrictWeakOn less xs
  · exact ⟨_, h.sortSlice_mergeSort (List.Perm.refl _)⟩
  · exact ⟨xs, List.Perm.refl _, fun hweak => absurd hweak h⟩

/-- A list with two elements has two arrangements. -/
theorem exists_perm_swap [DecidableEq α] (ha : a ∈ xs) (hb : b ∈ xs) (hne : a ≠ b) :
    ∃ l, (a :: b :: l).Perm xs ∧ (b :: a :: l).Perm xs := by
  have hperm := (List.perm_cons_erase ha).trans
    ((List.perm_cons_erase ((List.mem_erase_of_ne hne.symm).mpr hb)).cons a)
  exact ⟨_, hperm.symm, (List.Perm.swap _ _ _).trans hperm.symm⟩

/-- Of two elements that are not the other way round, the first may be left in
front. -/
theorem StrictWeakOn.exists_sortSlice_pair (h : StrictWeakOn less xs) (ha : a ∈ xs)
    (hb : b ∈ xs) (hne : a ≠ b) (hba : less b a = false) :
    ∃ ys, SortSlice less xs ys ∧ List.Sublist [a, b] ys := by
  classical
  obtain ⟨l, hl, _⟩ := exists_perm_swap (List.mem_attach xs ⟨a, ha⟩)
    (List.mem_attach xs ⟨b, hb⟩) fun heq => hne (congrArg Subtype.val heq)
  refine ⟨_, h.sortSlice_mergeSort hl, ?_⟩
  have hfront : notLess less xs ⟨a, ha⟩ ⟨b, hb⟩ = true := by
    rw [notLess, hba]
    rfl
  exact (List.pair_sublist_mergeSort h.notLess_trans h.notLess_total hfront
    (((List.nil_sublist _).cons_cons _).cons_cons _)).map (·.1)

/-- Two elements come in one order only. -/
theorem not_pair_sublist_swap (hnodup : ys.Nodup) (hne : a ≠ b)
    (hab : List.Sublist [a, b] ys) : ¬ List.Sublist [b, a] ys := by
  intro hba
  induction ys with
  | nil => cases hab
  | cons c ys ih =>
      obtain ⟨hc, hnodup⟩ := List.nodup_cons.mp hnodup
      cases hab with
      | cons _ hab =>
          cases hba with
          | cons _ hba => exact ih hnodup hab hba
          | cons_cons _ hba =>
              exact hc (hab.subset (List.mem_cons_of_mem _ (List.mem_singleton_self _)))
      | cons_cons _ hab =>
          cases hba with
          | cons _ hba =>
              exact hc (hba.subset (List.mem_cons_of_mem _ (List.mem_singleton_self _)))
          | cons_cons _ hba => exact hne rfl

theorem weak_of_unique (hirrefl : ∀ a ∈ xs, less a a = false)
    (h : ∀ ys zs, SortSlice less xs ys → SortSlice less xs zs → ys = zs) :
    StrictWeakOn less xs := by
  classical
  by_contra hnot
  have hany : ∀ {ys}, ys.Perm xs → SortSlice less xs ys := fun hys =>
    ⟨hys, fun hweak => absurd hweak hnot⟩
  -- Any order may come out, so there is only one element.
  have hone : ∀ a ∈ xs, ∀ b ∈ xs, a = b := by
    intro a ha b hb
    by_contra hne
    obtain ⟨l, hab, hba⟩ := exists_perm_swap ha hb hne
    exact hne (List.cons.inj (h _ _ (hany hab) (hany hba))).1
  refine hnot ⟨hirrefl, fun a ha b hb c hc hab _ => ?_, fun a ha b hb c hc _ _ => ?_⟩
  · rw [hone b hb c hc] at hab
    exact hab
  · rw [hone c hc a ha]
    exact hirrefl a ha

/-- The outcome is settled exactly where the comparison tells every two elements
apart. -/
theorem sortSlice_unique_iff (hirrefl : ∀ a ∈ xs, less a a = false)
    (hnodup : xs.Nodup) :
    (∀ ys zs, SortSlice less xs ys → SortSlice less xs zs → ys = zs) ↔
      StrictTotalOn less xs := by
  constructor
  · intro h
    have hweak := weak_of_unique hirrefl h
    refine ⟨hirrefl, hweak.trans, fun a ha b hb hne => ?_⟩
    by_contra htied
    rw [not_or, Bool.not_eq_true, Bool.not_eq_true] at htied
    obtain ⟨ys, hys, hab⟩ := hweak.exists_sortSlice_pair ha hb hne htied.2
    obtain ⟨zs, hzs, hba⟩ := hweak.exists_sortSlice_pair hb ha hne.symm htied.1
    rw [← h ys zs hys hzs] at hba
    exact not_pair_sublist_swap (hys.perm.nodup_iff.mpr hnodup) hne hab hba
  · exact fun h ys zs => SortSlice.unique h

end NodeLink.Lib
