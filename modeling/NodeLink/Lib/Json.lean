import Mathlib.Data.List.Sort
import Mathlib.Data.List.Nodup
import NodeLink.Lib.Utf8

/-!
# JSON values and their compact text

A JSON value over any type `σ` of strings and `ν` of numbers. Objects keep
their members in order, duplicate keys included, so that one type serves a
parse tree, a dictionary in insertion order and a map.

Every function on values here is a `fold`; its two recursive equations
mention `List.map` only, so the induction principle `Json.ind` and those
equations are all the proofs use. `render` is the compact text with string
and number renderings as parameters, and the lemmas on it say how the text
moves under a change of alphabet, of string type and of key order.
-/

namespace NodeLink.Lib

/-- A JSON value. -/
inductive Json (σ ν : Type) where
  | null
  | bool (b : Bool)
  | num (n : ν)
  | str (s : σ)
  | arr (items : List (Json σ ν))
  | obj (members : List (σ × Json σ ν))

namespace Json

variable {σ σ' ν ν' τ τ' β : Type}

/-- Induction on values, the parts of a container reached by membership. -/
theorem ind {P : Json σ ν → Prop} (null : P .null) (bool : ∀ b, P (.bool b))
    (num : ∀ n, P (.num n)) (str : ∀ s, P (.str s))
    (arr : ∀ vs, (∀ v ∈ vs, P v) → P (.arr vs))
    (obj : ∀ ms : List (σ × Json σ ν), (∀ m ∈ ms, P m.2) → P (.obj ms)) :
    ∀ v, P v
  | .null => null
  | .bool b => bool b
  | .num n => num n
  | .str s => str s
  | .arr vs => arr vs fun v _ => ind null bool num str arr obj v
  | .obj ms => obj ms fun m _ => ind null bool num str arr obj m.2
termination_by v => sizeOf v
decreasing_by
  · have := List.sizeOf_lt_of_mem ‹v ∈ vs›
    simp only [Json.arr.sizeOf_spec]
    omega
  · have h := List.sizeOf_lt_of_mem ‹m ∈ ms›
    have hm : sizeOf m = 1 + sizeOf m.1 + sizeOf m.2 := by cases m; rfl
    simp only [Json.obj.sizeOf_spec]
    omega

/-! ## Folding a value -/

section Fold

variable (null : β) (bool : Bool → β) (num : ν → β) (str : σ → β)
  (arr : List β → β) (obj : List (σ × β) → β)

mutual

/-- Replace every constructor of a value by a function. -/
def fold : Json σ ν → β
  | .null => null
  | .bool b => bool b
  | .num n => num n
  | .str s => str s
  | .arr vs => arr (foldItems vs)
  | .obj ms => obj (foldMembers ms)

/-- `fold` on the items of an array. -/
def foldItems : List (Json σ ν) → List β
  | [] => []
  | v :: vs => fold v :: foldItems vs

/-- `fold` on the members of an object. -/
def foldMembers : List (σ × Json σ ν) → List (σ × β)
  | [] => []
  | (k, v) :: ms => (k, fold v) :: foldMembers ms

end

theorem foldItems_eq_map (vs : List (Json σ ν)) :
    foldItems null bool num str arr obj vs =
      vs.map (fold null bool num str arr obj) := by
  induction vs with
  | nil => rfl
  | cons v vs ih => simp [foldItems, ih]

theorem foldMembers_eq_map (ms : List (σ × Json σ ν)) :
    foldMembers null bool num str arr obj ms =
      ms.map (Prod.map id (fold null bool num str arr obj)) := by
  induction ms with
  | nil => rfl
  | cons m ms ih => simp [foldMembers, ih, Prod.map]

@[simp] theorem fold_null :
    fold null bool num str arr obj (.null : Json σ ν) = null := rfl

@[simp] theorem fold_bool (b : Bool) :
    fold null bool num str arr obj (.bool b : Json σ ν) = bool b := rfl

@[simp] theorem fold_num (n : ν) :
    fold null bool num str arr obj (.num n : Json σ ν) = num n := rfl

@[simp] theorem fold_str (s : σ) :
    fold null bool num str arr obj (.str s : Json σ ν) = str s := rfl

@[simp] theorem fold_arr (vs : List (Json σ ν)) :
    fold null bool num str arr obj (.arr vs) =
      arr (vs.map (fold null bool num str arr obj)) := by
  rw [fold, foldItems_eq_map]

@[simp] theorem fold_obj (ms : List (σ × Json σ ν)) :
    fold null bool num str arr obj (.obj ms) =
      obj (ms.map (Prod.map id (fold null bool num str arr obj))) := by
  rw [fold, foldMembers_eq_map]

end Fold

/-! ## Mapping, counting and predicates -/

/-- Change the string and number types. -/
def map (g : σ → σ') (h : ν → ν') : Json σ ν → Json σ' ν' :=
  fold .null .bool (fun n => .num (h n)) (fun s => .str (g s)) .arr
    (fun ms => .obj (ms.map (Prod.map g id)))

/-- Every string of a value, keys included, satisfies `P` and every number
satisfies `Q`. -/
def All (P : σ → Prop) (Q : ν → Prop) : Json σ ν → Prop :=
  fold True (fun _ => True) Q P (fun ps => ∀ p ∈ ps, p)
    (fun ms => ∀ m ∈ ms, P m.1 ∧ m.2)

/-- No object of the value has a key twice. -/
def DistinctKeys : Json σ ν → Prop :=
  fold True (fun _ => True) (fun _ => True) (fun _ => True)
    (fun ps => ∀ p ∈ ps, p)
    (fun ms => (ms.map Prod.fst).Nodup ∧ ∀ m ∈ ms, m.2)

/-- How many containers stand inside each other, at most. -/
def nesting : Json σ ν → Nat :=
  fold 0 (fun _ => 0) (fun _ => 0) (fun _ => 0)
    (fun ns => ns.foldr max 0 + 1) (fun ms => (ms.map Prod.snd).foldr max 0 + 1)

@[simp] theorem map_null (g : σ → σ') (h : ν → ν') :
    (null : Json σ ν).map g h = .null := rfl

@[simp] theorem map_bool (g : σ → σ') (h : ν → ν') (b : Bool) :
    (bool b : Json σ ν).map g h = .bool b := rfl

@[simp] theorem map_num (g : σ → σ') (h : ν → ν') (n : ν) :
    (num n : Json σ ν).map g h = .num (h n) := rfl

@[simp] theorem map_str (g : σ → σ') (h : ν → ν') (s : σ) :
    (str s : Json σ ν).map g h = .str (g s) := rfl

@[simp] theorem map_arr (g : σ → σ') (h : ν → ν') (vs : List (Json σ ν)) :
    (arr vs).map g h = .arr (vs.map (map g h)) := by
  simp [map]

@[simp] theorem map_obj (g : σ → σ') (h : ν → ν')
    (ms : List (σ × Json σ ν)) :
    (obj ms).map g h = .obj (ms.map (Prod.map g (map g h))) := by
  simp [map, Function.comp_def, Prod.map]

@[simp] theorem all_arr {P : σ → Prop} {Q : ν → Prop}
    {vs : List (Json σ ν)} : (arr vs).All P Q ↔ ∀ v ∈ vs, v.All P Q := by
  simp only [All, fold_arr, List.mem_map, forall_exists_index, and_imp,
    forall_apply_eq_imp_iff₂]

@[simp] theorem all_obj {P : σ → Prop} {Q : ν → Prop}
    {ms : List (σ × Json σ ν)} :
    (obj ms).All P Q ↔ ∀ m ∈ ms, P m.1 ∧ m.2.All P Q := by
  simp only [All, fold_obj, List.mem_map, forall_exists_index, and_imp,
    forall_apply_eq_imp_iff₂, Prod.map_fst, Prod.map_snd, id]

@[simp] theorem all_str {P : σ → Prop} {Q : ν → Prop} {s : σ} :
    (str s : Json σ ν).All P Q ↔ P s := Iff.rfl

@[simp] theorem all_num {P : σ → Prop} {Q : ν → Prop} {n : ν} :
    (num n : Json σ ν).All P Q ↔ Q n := Iff.rfl

@[simp] theorem distinctKeys_null : (null : Json σ ν).DistinctKeys := trivial

@[simp] theorem distinctKeys_bool {b : Bool} :
    (bool b : Json σ ν).DistinctKeys := trivial

@[simp] theorem distinctKeys_num {n : ν} :
    (num n : Json σ ν).DistinctKeys := trivial

@[simp] theorem distinctKeys_str {s : σ} :
    (str s : Json σ ν).DistinctKeys := trivial

@[simp] theorem distinctKeys_arr {vs : List (Json σ ν)} :
    (arr vs).DistinctKeys ↔ ∀ v ∈ vs, v.DistinctKeys := by
  simp only [DistinctKeys, fold_arr, List.mem_map, forall_exists_index,
    and_imp, forall_apply_eq_imp_iff₂]

@[simp] theorem distinctKeys_obj {ms : List (σ × Json σ ν)} :
    (obj ms).DistinctKeys ↔
      (ms.map Prod.fst).Nodup ∧ ∀ m ∈ ms, m.2.DistinctKeys := by
  simp only [DistinctKeys, fold_obj, List.mem_map, forall_exists_index,
    and_imp, forall_apply_eq_imp_iff₂, Prod.map_snd, List.map_map]
  rfl

theorem All.imp {P P' : σ → Prop} {Q Q' : ν → Prop} {v : Json σ ν}
    (hP : ∀ s, P s → P' s) (hQ : ∀ n, Q n → Q' n) (h : v.All P Q) :
    v.All P' Q' := by
  induction v using ind with
  | null => trivial
  | bool b => trivial
  | num n => exact hQ n h
  | str s => exact hP s h
  | arr vs ih => exact all_arr.mpr fun v hv => ih v hv (all_arr.mp h v hv)
  | obj ms ih =>
      refine all_obj.mpr fun m hm => ?_
      have hms := all_obj.mp h m hm
      exact ⟨hP _ hms.1, ih m hm hms.2⟩

/-- Strings by one fact, numbers by another. -/
theorem All.and {P P' : σ → Prop} {Q Q' : ν → Prop} {v : Json σ ν}
    (h : v.All P Q) (h' : v.All P' Q') :
    v.All P Q' := by
  induction v using ind with
  | null => trivial
  | bool b => trivial
  | num n => exact h'
  | str s => exact h
  | arr vs ih =>
      exact all_arr.mpr fun v hv => ih v hv (all_arr.mp h v hv)
        (all_arr.mp h' v hv)
  | obj ms ih =>
      refine all_obj.mpr fun m hm => ?_
      have hms := all_obj.mp h m hm
      exact ⟨hms.1, ih m hm hms.2 (all_obj.mp h' m hm).2⟩

/-- Strings mapped injectively, as far as the value's own strings go, keep
keys distinct. -/
theorem DistinctKeys.map {P : σ → Prop} {Q : ν → Prop} {g : σ → σ'}
    {h : ν → ν'} (hg : ∀ s t, P s → P t → g s = g t → s = t)
    {v : Json σ ν} (hv : v.All P Q) (hd : v.DistinctKeys) :
    (v.map g h).DistinctKeys := by
  induction v using ind with
  | null => trivial
  | bool b => trivial
  | num n => trivial
  | str s => trivial
  | arr vs ih =>
      rw [all_arr] at hv
      rw [distinctKeys_arr] at hd
      rw [map_arr, distinctKeys_arr]
      rintro w hw
      obtain ⟨v, hvm, rfl⟩ := List.mem_map.mp hw
      exact ih v hvm (hv v hvm) (hd v hvm)
  | obj ms ih =>
      rw [all_obj] at hv
      rw [distinctKeys_obj] at hd
      rw [map_obj, distinctKeys_obj]
      refine ⟨?_, ?_⟩
      · rw [List.map_map, show Prod.fst ∘ Prod.map g (Json.map g h)
          = g ∘ Prod.fst from rfl, ← List.map_map]
        refine (List.nodup_map_iff_inj_on hd.1).mpr fun s hs t ht hst => ?_
        obtain ⟨m, hm, rfl⟩ := List.mem_map.mp hs
        obtain ⟨m', hm', rfl⟩ := List.mem_map.mp ht
        exact hg _ _ (hv m hm).1 (hv m' hm').1 hst
      · rintro w hw
        obtain ⟨m, hm, rfl⟩ := List.mem_map.mp hw
        exact ih m hm (hv m hm).2 (hd.2 m hm)

/-! ## Sorted keys -/

section SortKeys

variable (r : σ → σ → Prop) [DecidableRel r]

/-- Members in key order. -/
def sortMembers (ms : List (σ × β)) : List (σ × β) :=
  ms.insertionSort (fun m n => r m.1 n.1)

/-- Every object of the value with its members in key order. -/
def sortKeys : Json σ ν → Json σ ν :=
  fold .null .bool .num .str .arr (fun ms => .obj (sortMembers r ms))

theorem mem_sortMembers {ms : List (σ × β)} {m : σ × β} :
    m ∈ sortMembers r ms ↔ m ∈ ms := List.mem_insertionSort _

@[simp] theorem sortKeys_arr (vs : List (Json σ ν)) :
    (arr vs).sortKeys r = .arr (vs.map (sortKeys r)) := fold_arr ..

@[simp] theorem sortKeys_obj (ms : List (σ × Json σ ν)) :
    (obj ms).sortKeys r =
      .obj (sortMembers r (ms.map (Prod.map id (sortKeys r)))) := fold_obj ..

theorem All.sortKeys {P : σ → Prop} {Q : ν → Prop} {v : Json σ ν}
    (h : v.All P Q) : (v.sortKeys r).All P Q := by
  induction v using ind with
  | null => trivial
  | bool b => trivial
  | num n => exact h
  | str s => exact h
  | arr vs ih =>
      rw [all_arr] at h
      rw [sortKeys_arr, all_arr]
      intro w hw
      obtain ⟨v, hv, rfl⟩ := List.mem_map.mp hw
      exact ih v hv (h v hv)
  | obj ms ih =>
      rw [all_obj] at h
      rw [sortKeys_obj, all_obj]
      intro w hw
      obtain ⟨m, hm, rfl⟩ := List.mem_map.mp ((mem_sortMembers r).mp hw)
      exact ⟨(h m hm).1, ih m hm (h m hm).2⟩

theorem all_of_all_sortKeys {P : σ → Prop} {Q : ν → Prop} {v : Json σ ν}
    (h : (v.sortKeys r).All P Q) : v.All P Q := by
  induction v using ind with
  | null => trivial
  | bool b => trivial
  | num n => exact h
  | str s => exact h
  | arr vs ih =>
      rw [sortKeys_arr, all_arr] at h
      exact all_arr.mpr fun v hv => ih v hv (h _ (List.mem_map_of_mem hv))
  | obj ms ih =>
      rw [sortKeys_obj, all_obj] at h
      refine all_obj.mpr fun m hm => ?_
      have hm' := h _ ((mem_sortMembers r).mpr (List.mem_map_of_mem hm))
      exact ⟨hm'.1, ih m hm hm'.2⟩

theorem perm_sortMembers (ms : List (σ × β)) : (sortMembers r ms).Perm ms :=
  List.perm_insertionSort _ _

/-- Sorting keys commutes with a map that keeps their order. -/
theorem sortKeys_map {r' : σ' → σ' → Prop} [DecidableRel r'] {P : σ → Prop}
    {Q : ν → Prop} {g : σ → σ'} {h : ν → ν'}
    (hg : ∀ s t, P s → P t → (r s t ↔ r' (g s) (g t))) {v : Json σ ν}
    (hv : v.All P Q) :
    (v.map g h).sortKeys r' = (v.sortKeys r).map g h := by
  induction v using ind with
  | null => rfl
  | bool b => rfl
  | num n => rfl
  | str s => rfl
  | arr vs ih =>
      rw [all_arr] at hv
      simp only [map_arr, sortKeys_arr, List.map_map, arr.injEq]
      exact List.map_congr_left fun v hvm => ih v hvm (hv v hvm)
  | obj ms ih =>
      rw [all_obj] at hv
      simp only [map_obj, sortKeys_obj, List.map_map, obj.injEq]
      have hsort := List.map_insertionSort (fun m n => r m.1 n.1)
        (fun m n : σ' × Json σ' ν' => r' m.1 n.1) (Prod.map g (Json.map g h))
        (ms.map (Prod.map id (Json.sortKeys r))) (by
          intro a ha b hb
          obtain ⟨m, hm, rfl⟩ := List.mem_map.mp ha
          obtain ⟨n, hn, rfl⟩ := List.mem_map.mp hb
          exact hg _ _ (hv m hm).1 (hv n hn).1)
      rw [sortMembers, sortMembers, hsort, List.map_map]
      congr 1
      refine List.map_congr_left fun m hm => ?_
      exact Prod.ext rfl (ih m hm (hv m hm).2)

end SortKeys

/-! ## Compact text -/

section Render

variable (lit : Char → List τ) (str : σ → List τ) (num : ν → List τ)

/-- A quoted string. -/
def quoted (s : σ) : List τ := lit '"' ++ str s ++ lit '"'

/-- The compact text of a value: no space, members as they stand. `lit`
writes one ASCII character of punctuation. -/
def render : Json σ ν → List τ :=
  fold ("null".toList.flatMap lit)
    (fun b => (if b then "true" else "false").toList.flatMap lit)
    num (quoted lit str)
    (fun items => lit '[' ++ (lit ',').intercalate items ++ lit ']')
    (fun members => lit '{' ++ (lit ',').intercalate (members.map
      fun m => quoted lit str m.1 ++ lit ':' ++ m.2) ++ lit '}')

@[simp] theorem render_null :
    (null : Json σ ν).render lit str num = "null".toList.flatMap lit := rfl

@[simp] theorem render_bool (b : Bool) :
    (bool b : Json σ ν).render lit str num =
      (if b then "true" else "false").toList.flatMap lit := rfl

@[simp] theorem render_num (n : ν) :
    (Json.num n : Json σ ν).render lit str num = num n := rfl

@[simp] theorem render_str (s : σ) :
    (Json.str s : Json σ ν).render lit str num = quoted lit str s := rfl

@[simp] theorem render_arr (vs : List (Json σ ν)) :
    (arr vs).render lit str num =
      lit '[' ++ (lit ',').intercalate (vs.map (render lit str num))
        ++ lit ']' := fold_arr ..

@[simp] theorem render_obj (ms : List (σ × Json σ ν)) :
    (obj ms).render lit str num =
      lit '{' ++ (lit ',').intercalate (ms.map fun m =>
        quoted lit str m.1 ++ lit ':' ++ m.2.render lit str num)
        ++ lit '}' := by
  rw [render, fold_obj, List.map_map]
  rfl

end Render

theorem flatMap_intercalate (f : τ → List τ') (sep : List τ)
    (xs : List (List τ)) :
    (sep.intercalate xs).flatMap f =
      (sep.flatMap f).intercalate (xs.map (·.flatMap f)) := by
  simp only [List.intercalate]
  induction xs with
  | nil => rfl
  | cons x xs ih =>
      cases xs with
      | nil => simp
      | cons y ys => simpa using ih

/-- The text of a value over another alphabet. -/
theorem flatMap_render (f : τ → List τ') (lit : Char → List τ)
    (str : σ → List τ) (num : ν → List τ) (v : Json σ ν) :
    (v.render lit str num).flatMap f =
      v.render (fun c => (lit c).flatMap f) (fun s => (str s).flatMap f)
        (fun n => (num n).flatMap f) := by
  induction v using ind with
  | null => simp
  | bool b => cases b <;> simp
  | num n => rfl
  | str s => simp [quoted]
  | arr vs ih =>
      simp only [render_arr, List.flatMap_append, flatMap_intercalate,
        List.map_map]
      congr 3
      exact List.map_congr_left fun v hv => ih v hv
  | obj ms ih =>
      simp only [render_obj, List.flatMap_append, flatMap_intercalate,
        List.map_map]
      congr 3
      refine List.map_congr_left fun m hm => ?_
      simp [quoted, ih m hm]

/-- The text of a value with its strings and numbers mapped. -/
theorem render_map (lit : Char → List τ) (str : σ' → List τ)
    (num : ν' → List τ) (g : σ → σ') (h : ν → ν') (v : Json σ ν) :
    (v.map g h).render lit str num =
      v.render lit (fun s => str (g s)) (fun n => num (h n)) := by
  induction v using ind with
  | null => rfl
  | bool b => rfl
  | num n => rfl
  | str s => rfl
  | arr vs ih =>
      simp only [map_arr, render_arr, List.map_map]
      congr 3
      exact List.map_congr_left fun v hv => ih v hv
  | obj ms ih =>
      simp only [map_obj, render_obj, List.map_map]
      congr 3
      refine List.map_congr_left fun m hm => ?_
      simp [quoted, ih m hm]

/-- Two renderings that agree on ASCII punctuation and on the value's own
strings and numbers. -/
theorem render_congr {P : σ → Prop} {Q : ν → Prop} {lit lit' : Char → List τ}
    {str str' : σ → List τ} {num num' : ν → List τ}
    (hl : ∀ c : Char, c.toNat < 0x80 → lit c = lit' c)
    (hs : ∀ s, P s → str s = str' s) (hn : ∀ n, Q n → num n = num' n)
    {v : Json σ ν} (hv : v.All P Q) :
    v.render lit str num = v.render lit' str' num' := by
  have hword : ∀ w : List Char, (∀ c ∈ w, c.toNat < 0x80) →
      w.flatMap lit = w.flatMap lit' := by
    intro w hw
    induction w with
    | nil => rfl
    | cons c w ih =>
        rw [List.flatMap_cons, List.flatMap_cons, hl c (hw c (by simp)),
          ih fun d hd => hw d (by simp [hd])]
  induction v using ind with
  | null => exact hword _ (by simp)
  | bool b => cases b <;> exact hword _ (by simp)
  | num n => exact hn n hv
  | str s => simp [quoted, hs s hv, hl '"' (by decide)]
  | arr vs ih =>
      rw [all_arr] at hv
      rw [render_arr, render_arr, hl '[' (by decide), hl ']' (by decide),
        hl ',' (by decide)]
      congr 3
      exact List.map_congr_left fun v hvm => ih v hvm (hv v hvm)
  | obj ms ih =>
      rw [all_obj] at hv
      rw [render_obj, render_obj, hl '{' (by decide), hl '}' (by decide),
        hl ',' (by decide)]
      congr 3
      refine List.map_congr_left fun m hm => ?_
      simp [quoted, hs _ (hv m hm).1, ih m hm (hv m hm).2, hl '"' (by decide),
        hl ':' (by decide)]

theorem mem_intercalate {x : τ} {sep : List τ} {xs : List (List τ)}
    {ys : List τ} (hys : ys ∈ xs) (hx : x ∈ ys) : x ∈ sep.intercalate xs := by
  induction xs with
  | nil => cases hys
  | cons z zs ih =>
      cases zs with
      | nil =>
          obtain rfl := List.mem_singleton.mp hys
          simpa [List.intercalate] using hx
      | cons w ws =>
          have hstep : sep.intercalate (z :: w :: ws) =
              z ++ sep ++ sep.intercalate (w :: ws) := by
            simp [List.intercalate]
          rw [hstep, List.mem_append, List.mem_append]
          rcases List.mem_cons.mp hys with rfl | h
          · exact Or.inl (Or.inl hx)
          · exact Or.inr (ih h)

/-- What every letter of the text satisfies, every letter of its strings
and numbers does. -/
theorem all_of_forall_mem_render {lit : Char → List τ} {str : σ → List τ}
    {num : ν → List τ} {Q : τ → Prop} {v : Json σ ν}
    (h : ∀ t ∈ v.render lit str num, Q t) :
    v.All (fun s => ∀ t ∈ str s, Q t) (fun n => ∀ t ∈ num n, Q t) := by
  induction v using ind with
  | null => trivial
  | bool b => trivial
  | num n => exact h
  | str s => exact fun t ht => h t (by simp [quoted, ht])
  | arr vs ih =>
      refine all_arr.mpr fun v hv => ih v hv fun t ht => h t ?_
      rw [render_arr, List.mem_append, List.mem_append]
      exact Or.inl (Or.inr (mem_intercalate (List.mem_map_of_mem hv) ht))
  | obj ms ih =>
      refine all_obj.mpr fun m hm => ?_
      have hin : ∀ t ∈ quoted lit str m.1 ++ lit ':'
          ++ m.2.render lit str num, Q t := fun t ht => h t (by
        rw [render_obj, List.mem_append, List.mem_append]
        exact Or.inl (Or.inr (mem_intercalate (List.mem_map_of_mem hm) ht)))
      refine ⟨fun t ht => hin t ?_, ih m hm fun t ht => hin t ?_⟩
      · simp [quoted, ht]
      · simp [ht]

theorem forall_mem_intercalate {Q : τ → Prop} {sep : List τ}
    {xs : List (List τ)} (hsep : ∀ t ∈ sep, Q t) (hxs : ∀ x ∈ xs, ∀ t ∈ x, Q t) :
    ∀ t ∈ sep.intercalate xs, Q t := by
  induction xs with
  | nil =>
      intro t ht
      cases ht
  | cons x xs ih =>
      cases xs with
      | nil =>
          intro t ht
          exact hxs x (by simp) t (by simpa [List.intercalate] using ht)
      | cons y ys =>
          intro t ht
          have hstep : sep.intercalate (x :: y :: ys) =
              x ++ sep ++ sep.intercalate (y :: ys) := by
            simp [List.intercalate]
          rw [hstep, List.mem_append, List.mem_append] at ht
          rcases ht with (ht | ht) | ht
          · exact hxs x (by simp) t ht
          · exact hsep t ht
          · exact ih (fun z hz => hxs z (by simp [hz])) t ht

/-- What punctuation and every letter of the strings and numbers satisfy,
every letter of the text does. -/
theorem forall_mem_render {lit : Char → List τ} {str : σ → List τ}
    {num : ν → List τ} {Q : τ → Prop} {v : Json σ ν}
    (hlit : ∀ c : Char, c.toNat < 0x80 → ∀ t ∈ lit c, Q t)
    (h : v.All (fun s => ∀ t ∈ str s, Q t) (fun n => ∀ t ∈ num n, Q t)) :
    ∀ t ∈ v.render lit str num, Q t := by
  have hword : ∀ w : List Char, (∀ c ∈ w, c.toNat < 0x80) →
      ∀ t ∈ w.flatMap lit, Q t := by
    intro w hw t ht
    obtain ⟨c, hc, hct⟩ := List.mem_flatMap.mp ht
    exact hlit c (hw c hc) t hct
  have hquoted : ∀ s, (∀ t ∈ str s, Q t) → ∀ t ∈ quoted lit str s, Q t := by
    intro s hs t ht
    rw [quoted, List.mem_append, List.mem_append] at ht
    rcases ht with (ht | ht) | ht
    · exact hlit '"' (by decide) t ht
    · exact hs t ht
    · exact hlit '"' (by decide) t ht
  induction v using ind with
  | null => exact hword _ (by simp)
  | bool b => cases b <;> exact hword _ (by simp)
  | num n => exact h
  | str s => exact hquoted s h
  | arr vs ih =>
      intro t ht
      rw [render_arr, List.mem_append, List.mem_append] at ht
      rcases ht with (ht | ht) | ht
      · exact hlit '[' (by decide) t ht
      · refine forall_mem_intercalate (hlit ',' (by decide)) ?_ t ht
        intro x hx
        obtain ⟨v, hv, rfl⟩ := List.mem_map.mp hx
        exact ih v hv (all_arr.mp h v hv)
      · exact hlit ']' (by decide) t ht
  | obj ms ih =>
      intro t ht
      rw [render_obj, List.mem_append, List.mem_append] at ht
      rcases ht with (ht | ht) | ht
      · exact hlit '{' (by decide) t ht
      · refine forall_mem_intercalate (hlit ',' (by decide)) ?_ t ht
        intro x hx u hu
        obtain ⟨m, hm, rfl⟩ := List.mem_map.mp hx
        rw [List.mem_append, List.mem_append] at hu
        rcases hu with (hu | hu) | hu
        · exact hquoted m.1 (all_obj.mp h m hm).1 u hu
        · exact hlit ':' (by decide) u hu
        · exact ih m hm (all_obj.mp h m hm).2 u hu
      · exact hlit '}' (by decide) t ht

/-! ## Equality -/

section Equality

variable [DecidableEq σ] [DecidableEq ν]

mutual

/-- Equality of values can be decided where that of strings and numbers can. -/
def decEq : (v w : Json σ ν) → Decidable (v = w)
  | .null, w => match w with
    | .null => isTrue rfl
    | .bool _ | .num _ | .str _ | .arr _ | .obj _ =>
      isFalse (by intro h; cases h)
  | .bool a, w => match w with
    | .bool b => decidable_of_iff (a = b) ⟨congrArg _, Json.bool.inj⟩
    | .null | .num _ | .str _ | .arr _ | .obj _ =>
      isFalse (by intro h; cases h)
  | .num m, w => match w with
    | .num n => decidable_of_iff (m = n) ⟨congrArg _, Json.num.inj⟩
    | .null | .bool _ | .str _ | .arr _ | .obj _ =>
      isFalse (by intro h; cases h)
  | .str s, w => match w with
    | .str t => decidable_of_iff (s = t) ⟨congrArg _, Json.str.inj⟩
    | .null | .bool _ | .num _ | .arr _ | .obj _ =>
      isFalse (by intro h; cases h)
  | .arr vs, w => match w with
    | .arr ws =>
      @decidable_of_iff _ (vs = ws) ⟨congrArg _, Json.arr.inj⟩
        (decEqItems vs ws)
    | .null | .bool _ | .num _ | .str _ | .obj _ =>
      isFalse (by intro h; cases h)
  | .obj ms, w => match w with
    | .obj ns =>
      @decidable_of_iff _ (ms = ns) ⟨congrArg _, Json.obj.inj⟩
        (decEqMembers ms ns)
    | .null | .bool _ | .num _ | .str _ | .arr _ =>
      isFalse (by intro h; cases h)

def decEqItems : (vs ws : List (Json σ ν)) → Decidable (vs = ws)
  | [], [] => isTrue rfl
  | [], _ :: _ | _ :: _, [] => isFalse (by intro h; cases h)
  | v :: vs, w :: ws =>
    @decidable_of_iff _ (v = w ∧ vs = ws) List.cons_eq_cons.symm
      (@instDecidableAnd _ _ (decEq v w) (decEqItems vs ws))

def decEqMembers : (ms ns : List (σ × Json σ ν)) → Decidable (ms = ns)
  | [], [] => isTrue rfl
  | [], _ :: _ | _ :: _, [] => isFalse (by intro h; cases h)
  | (k, v) :: ms, (l, w) :: ns =>
    @decidable_of_iff _ ((k = l ∧ v = w) ∧ ms = ns)
      ⟨fun h => by rw [h.1.1, h.1.2, h.2],
        fun h => by cases h; exact ⟨⟨rfl, rfl⟩, rfl⟩⟩
      (@instDecidableAnd _ _ (@instDecidableAnd _ _ _ (decEq v w))
        (decEqMembers ms ns))

end

instance : DecidableEq (Json σ ν) := decEq

end Equality

end Json

end NodeLink.Lib
