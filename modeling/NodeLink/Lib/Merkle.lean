import Mathlib.Data.List.Basic

/-!
# Merkle trees over lists

The nodes of a level are combined two by two from the left; one that is left
over goes up as it is. A tree is what the levels come to under `combine`. It
determines its leaves, for a given number of them, as far as `combine`
determines the pairs that are combined in it.
-/

namespace NodeLink.Lib

section Merkle

variable {N : Type} (combine : N → N → N)

def nextLevel : List N → List N
  | x :: y :: level => combine x y :: nextLevel level
  | level => level

/-- The levels above `level`, until one has a single node. -/
def topLevel : Nat → List N → List N
  | 0, level => level
  | fuel + 1, level =>
    if 1 < level.length then topLevel fuel (nextLevel combine level) else level

/-- The node a tree over these leaves ends in. -/
def merkleTop (leaves : List N) : Option N :=
  (topLevel combine leaves.length leaves).head?

/-! ## The pairs a tree combines -/

def levelPairs : List N → List (N × N)
  | x :: y :: level => (x, y) :: levelPairs level
  | _ => []

def pairsAbove : Nat → List N → List (N × N)
  | 0, _ => []
  | fuel + 1, level =>
    if 1 < level.length then
      levelPairs level ++ pairsAbove fuel (nextLevel combine level)
    else []

def merklePairs (leaves : List N) : List (N × N) :=
  pairsAbove combine leaves.length leaves

/-- `combine` tells the pairs of one list from those of the other. -/
def Separates (ps qs : List (N × N)) : Prop :=
  ∀ p ∈ ps, ∀ q ∈ qs, combine p.1 p.2 = combine q.1 q.2 → p = q

variable {combine}

theorem Separates.mono {ps qs ps' qs' : List (N × N)}
    (h : Separates combine ps qs) (hp : ∀ p ∈ ps', p ∈ ps)
    (hq : ∀ q ∈ qs', q ∈ qs) : Separates combine ps' qs' :=
  fun p hp' q hq' => h p (hp p hp') q (hq q hq')

/-! ## One level -/

theorem length_nextLevel (level : List N) :
    (nextLevel combine level).length = (level.length + 1) / 2 := by
  induction level using nextLevel.induct with
  | case1 x y level ih =>
      rw [nextLevel, List.length_cons, ih]
      simp only [List.length_cons]
      omega
  | case2 level hshort =>
      match level with
      | [] => simp [nextLevel]
      | [x] => simp [nextLevel]
      | x :: y :: level => exact absurd rfl (hshort x y level)

theorem nextLevel_injective {l m : List N} (hlen : l.length = m.length)
    (hsep : Separates combine (levelPairs l) (levelPairs m))
    (h : nextLevel combine l = nextLevel combine m) : l = m := by
  induction l using nextLevel.induct generalizing m with
  | case1 x y l ih =>
      match m, hlen with
      | x' :: y' :: m, hlen =>
          rw [nextLevel, nextLevel, List.cons.injEq] at h
          obtain ⟨hhead, htail⟩ := h
          have hpair : (x, y) = (x', y') :=
            hsep _ List.mem_cons_self _ List.mem_cons_self hhead
          have hrest : l = m := by
            refine ih (by simpa using hlen) (hsep.mono ?_ ?_) htail
            · exact fun p hp => List.mem_cons_of_mem _ hp
            · exact fun q hq => List.mem_cons_of_mem _ hq
          rw [(Prod.mk.inj hpair).1, (Prod.mk.inj hpair).2, hrest]
  | case2 l hshort =>
      match l, m, hlen with
      | [], [], _ => rfl
      | [x], [y], _ => exact h
      | x :: y :: l, _, _ => exact absurd rfl (hshort x y l)

/-! ## The tree -/

/-- The fuel is enough. -/
theorem length_topLevel {fuel : Nat} {level : List N}
    (hfuel : level.length ≤ fuel + 1) :
    (topLevel combine fuel level).length = min 1 level.length := by
  induction fuel generalizing level with
  | zero =>
      rw [topLevel]
      omega
  | succ fuel ih =>
      rw [topLevel]
      split
      · next hlong =>
        rw [ih (by rw [length_nextLevel]; omega), length_nextLevel]
        omega
      · next hshort => omega

theorem topLevel_injective {fuel : Nat} {l m : List N}
    (hlen : l.length = m.length)
    (hsep : Separates combine (pairsAbove combine fuel l)
      (pairsAbove combine fuel m))
    (h : topLevel combine fuel l = topLevel combine fuel m) : l = m := by
  induction fuel generalizing l m with
  | zero => exact h
  | succ fuel ih =>
      rw [topLevel, topLevel, hlen] at h
      rw [pairsAbove, pairsAbove, hlen] at hsep
      by_cases hlong : 1 < m.length
      · rw [if_pos hlong, if_pos hlong] at h hsep
        refine nextLevel_injective hlen (hsep.mono ?_ ?_) (ih ?_ (hsep.mono ?_ ?_) h)
        · exact fun p hp => List.mem_append_left _ hp
        · exact fun q hq => List.mem_append_left _ hq
        · rw [length_nextLevel, length_nextLevel, hlen]
        · exact fun p hp => List.mem_append_right _ hp
        · exact fun q hq => List.mem_append_right _ hq
      · rw [if_neg hlong, if_neg hlong] at h
        exact h

theorem eq_of_head?_eq {l m : List N} (hlen : l.length = m.length)
    (hshort : l.length ≤ 1) (h : l.head? = m.head?) : l = m := by
  match l, m, hlen with
  | [], [], _ => rfl
  | [x], [y], _ => rw [Option.some.inj h]
  | x :: y :: l, _, _ =>
      simp only [List.length_cons] at hshort
      omega

/-- Trees over the same number of leaves that end in one node have the same
leaves. -/
theorem merkleTop_injective {l m : List N} (hlen : l.length = m.length)
    (hsep : Separates combine (merklePairs combine l) (merklePairs combine m))
    (h : merkleTop combine l = merkleTop combine m) : l = m := by
  have hl : (topLevel combine l.length l).length = min 1 l.length :=
    length_topLevel (by omega)
  have hm : (topLevel combine m.length m).length = min 1 m.length :=
    length_topLevel (by omega)
  have htop : topLevel combine l.length l = topLevel combine m.length m :=
    eq_of_head?_eq (by rw [hl, hm, hlen]) (by omega) h
  rw [merklePairs, merklePairs, hlen] at hsep
  rw [hlen] at htop
  exact topLevel_injective hlen hsep htop

/-! ## Nodes with an invariant -/

theorem forall_nextLevel {P : N → Prop} {level : List N}
    (hcombine : ∀ x y, P (combine x y)) (h : ∀ x ∈ level, P x) :
    ∀ x ∈ nextLevel combine level, P x := by
  induction level using nextLevel.induct with
  | case1 x y level ih =>
      intro z hz
      rw [nextLevel] at hz
      rcases List.mem_cons.mp hz with rfl | hz
      · exact hcombine x y
      · exact ih (fun w hw => h w (by simp [hw])) z hz
  | case2 level hshort =>
      match level with
      | [] => exact h
      | [x] => exact h
      | x :: y :: level => exact absurd rfl (hshort x y level)

theorem forall_levelPairs {P : N → Prop} {level : List N}
    (h : ∀ x ∈ level, P x) : ∀ p ∈ levelPairs level, P p.1 ∧ P p.2 := by
  induction level using nextLevel.induct with
  | case1 x y level ih =>
      intro p hp
      rw [levelPairs] at hp
      rcases List.mem_cons.mp hp with rfl | hp
      · exact ⟨h x (by simp), h y (by simp)⟩
      · exact ih (fun w hw => h w (by simp [hw])) p hp
  | case2 level hshort =>
      match level with
      | [] => nofun
      | [x] => nofun
      | x :: y :: level => exact absurd rfl (hshort x y level)

theorem forall_pairsAbove {P : N → Prop} {fuel : Nat} {level : List N}
    (hcombine : ∀ x y, P (combine x y)) (h : ∀ x ∈ level, P x) :
    ∀ p ∈ pairsAbove combine fuel level, P p.1 ∧ P p.2 := by
  induction fuel generalizing level with
  | zero => nofun
  | succ fuel ih =>
      intro p hp
      rw [pairsAbove] at hp
      split at hp
      · rcases List.mem_append.mp hp with hp | hp
        · exact forall_levelPairs h p hp
        · exact ih (forall_nextLevel hcombine h) p hp
      · cases hp

end Merkle

end NodeLink.Lib
