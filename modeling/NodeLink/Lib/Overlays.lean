import Mathlib

/-!
# Settings laid over each other

A table is built from settings one after the other, each of which gives a key a
value or takes the key out. What the table ends up with is decided by the last
setting of a key alone. Where the settings come in groups, it is the last
setting of the greatest group that has one.
-/

namespace NodeLink.Lib

/-! ## The last of them -/

section Last

variable {β γ δ : Type} {p : β → Bool} {l m : List β} {x : β}

/-- The last element for which `p` holds. -/
def lastWhere (p : β → Bool) (l : List β) : Option β := (l.filter p).getLast?

theorem lastWhere_mem (h : lastWhere p l = some x) : x ∈ l ∧ p x = true :=
  List.mem_filter.mp (List.mem_of_getLast? h)

theorem lastWhere_append :
    lastWhere p (l ++ m) = (lastWhere p m).or (lastWhere p l) := by
  rw [lastWhere, List.filter_append, List.getLast?_append]
  rfl

theorem lastWhere_concat :
    lastWhere p (l ++ [x]) = if p x then some x else lastWhere p l := by
  rw [lastWhere_append]
  cases hx : p x with
  | true => simp [lastWhere, hx]
  | false => simp [lastWhere, hx]

theorem lastWhere_map {f : γ → β} {l : List γ} :
    lastWhere p (l.map f) = (lastWhere (fun g => p (f g)) l).map f := by
  rw [lastWhere, List.filter_map, List.getLast?_map]
  rfl

theorem lastWhere_eq_none : lastWhere p l = none ↔ ∀ x ∈ l, ¬ p x = true := by
  rw [lastWhere, List.getLast?_eq_none_iff, List.filter_eq_nil_iff]

theorem exists_lastWhere (hx : x ∈ l) (hp : p x = true) :
    ∃ y, lastWhere p l = some y := by
  cases hlast : lastWhere p l with
  | some y => exact ⟨y, rfl⟩
  | none => exact absurd hp (lastWhere_eq_none.mp hlast x hx)

variable [LinearOrder δ] {rank : γ → δ} {f : γ → List β} {groups : List γ}

/-- The last one in groups that are in order is the last one of the greatest
group that has one. -/
theorem lastWhere_flatMap_iff
    (hsorted : groups.Pairwise fun g g' => rank g < rank g') :
    lastWhere p (groups.flatMap f) = some x ↔
      ∃ g ∈ groups, lastWhere p (f g) = some x ∧
        ∀ g' ∈ groups, (∃ y ∈ f g', p y = true) → rank g' ≤ rank g := by
  induction groups with
  | nil => exact iff_of_false nofun nofun
  | cons first groups ih =>
      obtain ⟨hfirst, hrest⟩ := List.pairwise_cons.mp hsorted
      have ih := ih hrest
      rw [List.flatMap_cons, lastWhere_append]
      cases hlater : lastWhere p (groups.flatMap f) with
      | some y =>
          -- A later group has one, so the first group does not count.
          rw [Option.some_or, ← hlater, ih]
          obtain ⟨h, hh, z, hz, hpz⟩ : ∃ h ∈ groups, ∃ z ∈ f h, p z = true := by
            obtain ⟨hmem, hp⟩ := lastWhere_mem hlater
            obtain ⟨h, hh, hy⟩ := List.mem_flatMap.mp hmem
            exact ⟨h, hh, y, hy, hp⟩
          constructor
          · rintro ⟨g, hg, hlast, hgreatest⟩
            refine ⟨g, List.mem_cons_of_mem _ hg, hlast, ?_⟩
            exact List.forall_mem_cons.mpr
              ⟨fun _ => le_of_lt (hfirst g hg), hgreatest⟩
          · rintro ⟨g, hg, hlast, hgreatest⟩
            have hle := hgreatest h (List.mem_cons_of_mem _ hh) ⟨z, hz, hpz⟩
            rcases List.mem_cons.mp hg with rfl | hg
            · exact absurd (hfirst h hh) (not_lt_of_ge hle)
            · exact ⟨g, hg, hlast, fun g' hg' =>
                hgreatest g' (List.mem_cons_of_mem _ hg')⟩
      | none =>
          -- No later group has one.
          have hnone : ∀ g ∈ groups, ¬ ∃ y ∈ f g, p y = true := by
            rintro g hg ⟨y, hy, hp⟩
            exact lastWhere_eq_none.mp hlater y
              (List.mem_flatMap.mpr ⟨g, hg, hy⟩) hp
          rw [Option.none_or]
          constructor
          · intro hlast
            refine ⟨first, List.mem_cons_self, hlast, ?_⟩
            exact List.forall_mem_cons.mpr
              ⟨fun _ => le_refl _, fun g hg hone => absurd hone (hnone g hg)⟩
          · rintro ⟨g, hg, hlast, -⟩
            rcases List.mem_cons.mp hg with rfl | hg
            · exact hlast
            · have hx := lastWhere_mem hlast
              exact absurd ⟨x, hx⟩ (hnone g hg)

end Last

/-! ## Tables -/

section Tables

variable {κ β : Type} [DecidableEq κ] {k : κ} {b : β}

/-- A setting gives its key a value or takes the key out. -/
def overlay (table : List (κ × β)) (setting : κ × Option β) : List (κ × β) :=
  table.filter (fun e => decide (e.1 ≠ setting.1)) ++
    (setting.2.map (setting.1, ·)).toList

theorem mem_overlay {table : List (κ × β)} {setting : κ × Option β} :
    (k, b) ∈ overlay table setting ↔
      if setting.1 = k then setting.2 = some b else (k, b) ∈ table := by
  obtain ⟨key, value⟩ := setting
  rw [overlay, List.mem_append, List.mem_filter, Option.mem_toList]
  by_cases hk : key = k
  · subst hk
    simp
  · have hne : k ≠ key := Ne.symm hk
    simp [hk, hne]

/-- The table ends up with what the last setting of a key gives it, and with
what it held where there is none. -/
theorem mem_foldl_overlay {settings : List (κ × Option β)}
    {table : List (κ × β)} :
    (k, b) ∈ settings.foldl overlay table ↔
      lastWhere (fun s => decide (s.1 = k)) settings = some (k, some b) ∨
        lastWhere (fun s => decide (s.1 = k)) settings = none ∧
          (k, b) ∈ table := by
  induction settings using List.reverseRecOn with
  | nil => simp [lastWhere]
  | append_singleton settings setting ih =>
      rw [List.foldl_concat, mem_overlay, lastWhere_concat, ih]
      by_cases hk : setting.1 = k
      · rw [if_pos hk, if_pos (decide_eq_true hk), Option.some_inj,
          Prod.ext_iff, and_iff_right hk]
        exact (or_iff_left fun h => nomatch h.1).symm
      · rw [if_neg hk, if_neg (by rwa [decide_eq_true_eq])]

theorem mem_overlays {settings : List (κ × Option β)} :
    (k, b) ∈ settings.foldl overlay [] ↔
      lastWhere (fun s => decide (s.1 = k)) settings = some (k, some b) := by
  rw [mem_foldl_overlay]
  exact or_iff_left fun h => absurd h.2 List.not_mem_nil

theorem nodup_overlays {settings : List (κ × Option β)} :
    ((settings.foldl overlay []).map Prod.fst).Nodup := by
  induction settings using List.reverseRecOn with
  | nil => exact List.nodup_nil
  | append_singleton settings setting ih =>
      rw [List.foldl_concat, overlay, List.map_append, List.nodup_append]
      refine ⟨ih.sublist (List.filter_sublist.map _), ?_, ?_⟩
      · cases setting.2 with
        | none => exact List.nodup_nil
        | some b => exact List.nodup_singleton _
      · -- What is put in has a key that was filtered out.
        intro x hx y hy hxy
        obtain ⟨e, he, rfl⟩ := List.mem_map.mp hx
        obtain ⟨e', he', rfl⟩ := List.mem_map.mp hy
        obtain ⟨v, -, rfl⟩ :=
          Option.map_eq_some_iff.mp (Option.mem_toList.mp he')
        exact of_decide_eq_true (List.mem_filter.mp he).2 hxy

end Tables

end NodeLink.Lib
