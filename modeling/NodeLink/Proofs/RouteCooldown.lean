import Mathlib.Tactic.Ring
import NodeLink.Agent.RelayClient

/-!
# How long a failing route rests

The cooldown is a shift of 64 bits, and the cap is put on what is left of it.
The first cooldown is a multiple of 1024, so after 30 doublings what is left is
a multiple of 2^40, which is more than the cap unless it is none at all. The
shifts that are shorter are few, and the cap comes before the first that wraps.
-/

namespace NodeLink.Proofs.RouteCooldown

open Agent

/-! ## The shift -/

/-- What a shift of 30 or more leaves is over the cap, or not positive. -/
theorem wrapped_shift {k : Nat} (h : 30 ≤ k) :
    (routeCooldownInitial * 2 ^ k).bmod (2 ^ 64) ≤ 0 ∨
      routeCooldownMax < (routeCooldownInitial * 2 ^ k).bmod (2 ^ 64) := by
  obtain ⟨j, rfl⟩ := Nat.exists_eq_add_of_le h
  have hmultiple : (2 : Int) ^ 40 ∣ routeCooldownInitial * 2 ^ (30 + j) :=
    ⟨29296875 * 2 ^ j, by rw [Int.pow_add, routeCooldownInitial]; ring⟩
  have hwrap := Int.dvd_self_sub_bmod
    (x := routeCooldownInitial * 2 ^ (30 + j)) (m := 2 ^ 64)
  have hleft : (2 : Int) ^ 40 ∣
      (routeCooldownInitial * 2 ^ (30 + j)).bmod (2 ^ 64) := by
    have hpart : (2 : Int) ^ 40 ∣ ((2 ^ 64 : Nat) : Int) := ⟨2 ^ 24, by norm_num⟩
    have hsub := Int.dvd_sub hmultiple (Int.dvd_trans hpart hwrap)
    rwa [Int.sub_sub_self] at hsub
  by_cases hpos : (routeCooldownInitial * 2 ^ (30 + j)).bmod (2 ^ 64) ≤ 0
  · exact .inl hpos
  · refine .inr (Int.lt_of_lt_of_le ?_ (Int.le_of_dvd (by omega) hleft))
    decide

/-- The shifts that come before one that wraps to less than the cap. -/
theorem short_shift : ∀ k < 30, routeCooldown (k + 1) =
    min (routeCooldownInitial * 2 ^ k) routeCooldownMax := by
  decide +kernel

/-- The cooldown doubles with every failure, up to the cap. -/
theorem routeCooldown_eq (k : Nat) : routeCooldown (k + 1) =
    min (routeCooldownInitial * 2 ^ k) routeCooldownMax := by
  by_cases hk : k < 30
  · exact short_shift k hk
  · have hmax : routeCooldownMax ≤ routeCooldownInitial * 2 ^ k := by
      obtain ⟨j, rfl⟩ := Nat.exists_eq_add_of_le (Nat.not_lt.mp hk)
      have hpos : (1 : Int) ≤ 2 ^ j := Int.pow_pos (by decide)
      rw [Int.pow_add, routeCooldownInitial, routeCooldownMax]
      omega
    rw [Int.min_eq_right hmax, routeCooldown, Nat.add_sub_cancel]
    exact if_pos (wrapped_shift (Nat.not_lt.mp hk))

/-! ## Marks -/

/-- A route was tried. -/
structure Mark where
  route : Nat
  ok : Bool
  now : Int

/-- What marks make of a client. -/
def afterMarks (c : RelayClient) (marks : List Mark) : RelayClient :=
  marks.foldl (fun c m => c.markRoute m.route m.ok m.now) c

/-- How often a route has failed since it last answered. -/
def failuresInRow (i : Nat) (marks : List Mark) : Nat :=
  ((marks.filter fun m => decide (m.route = i)).reverse.takeWhile
    fun m => !m.ok).length

theorem afterMarks_concat (c : RelayClient) (marks : List Mark) (m : Mark) :
    afterMarks c (marks ++ [m]) =
      (afterMarks c marks).markRoute m.route m.ok m.now := by
  rw [afterMarks, List.foldl_append]
  rfl

theorem failuresInRow_concat (i : Nat) (marks : List Mark) (m : Mark) :
    failuresInRow i (marks ++ [m]) =
      if m.route = i then (if m.ok then 0 else failuresInRow i marks + 1)
      else failuresInRow i marks := by
  rw [failuresInRow, List.filter_append, List.reverse_append]
  by_cases hroute : m.route = i
  · rw [if_pos hroute,
      List.filter_cons_of_pos (p := fun m : Mark => decide (m.route = i))
        (decide_eq_true hroute)]
    cases hok : m.ok with
    | true => simp [hok]
    | false => simp [hok, failuresInRow]
  · rw [if_neg hroute, List.filter_cons_of_neg (p := fun m : Mark => decide (m.route = i))
      (by simpa using hroute)]
    rfl

theorem markRoute_get {c : RelayClient} {i j : Nat} {ok : Bool} {now : Int}
    {route : RouteState} (h : c.routes[i]? = some route) :
    (c.markRoute j ok now).routes[i]? =
      some (if j = i then route.mark ok now else route) := by
  rw [RelayClient.markRoute, List.getElem?_modify, h]
  split
  · rfl
  · rfl

variable {c : RelayClient} {i : Nat} {id baseURL : String}

/-- A route counts its failures in a row. -/
theorem afterMarks_get (h : c.routes[i]? = some { id, baseURL })
    (marks : List Mark) : ∃ until_,
      (afterMarks c marks).routes[i]? = some
        { id, baseURL, failures := failuresInRow i marks, cooldownUntil := until_ } := by
  induction marks using List.reverseRecOn with
  | nil => exact ⟨none, h⟩
  | append_singleton marks m ih =>
      obtain ⟨t, ht⟩ := ih
      rw [afterMarks_concat, markRoute_get ht, failuresInRow_concat]
      by_cases hroute : m.route = i
      · rw [if_pos hroute, if_pos hroute]
        cases m.ok with
        | true => exact ⟨none, rfl⟩
        | false => exact ⟨_, rfl⟩
      · rw [if_neg hroute, if_neg hroute]
        exact ⟨t, rfl⟩

/-- Whatever the routes went through before, a failure that is the n-th in a row
of a route lets it rest for 30 s times 2^(n-1) up to 10 minutes, which is never
nothing, and an answer makes it as new. -/
theorem route_cooldown_kept (h : c.routes[i]? = some { id, baseURL })
    (marks : List Mark) (now : Int) :
    ((afterMarks c marks).markRoute i false now).routes[i]? = some
        { id
          baseURL
          failures := failuresInRow i marks + 1
          cooldownUntil := some (now +
            min (routeCooldownInitial * 2 ^ failuresInRow i marks)
              routeCooldownMax) } ∧
      0 < min (routeCooldownInitial * 2 ^ failuresInRow i marks)
        routeCooldownMax ∧
      ((afterMarks c marks).markRoute i true now).routes[i]? =
        some { id, baseURL } := by
  obtain ⟨t, ht⟩ := afterMarks_get h marks
  refine ⟨?_, ?_, ?_⟩
  · rw [markRoute_get ht, if_pos rfl, ← routeCooldown_eq]
    rfl
  · have hpos : (0 : Int) < 2 ^ failuresInRow i marks :=
      Int.pow_pos (by decide)
    exact lt_min (Int.mul_pos (by decide) hpos) (by decide)
  · rw [markRoute_get ht, if_pos rfl]
    rfl

/-- A route that fails again after four failures rests for 8 minutes. -/
theorem route_cooldown_kept_fifth :
    ((afterMarks ⟨"token", [⟨"relay-a", "https://a", 0, none⟩], 0, ""⟩
        (List.replicate 4 ⟨0, false, 0⟩)).markRoute 0 false 7).routes[0]? = some
      ⟨"relay-a", "https://a", 5, some 480000000007⟩ :=
  have hroute : [⟨"relay-a", "https://a", 0, none⟩][0]? =
      some ({ id := "relay-a", baseURL := "https://a" } : RouteState) := rfl
  (route_cooldown_kept hroute (List.replicate 4 ⟨0, false, 0⟩) 7).1

end NodeLink.Proofs.RouteCooldown
