import Mathlib
import NodeLink.Lib.JsonText

/-!
# The length of compact text

How long the compact text of a value is, from the lengths of its strings and
numbers alone. The order of the members plays no part, and an array or an
object takes its two brackets, its parts and a comma between every two of them.
-/

namespace NodeLink.Lib.Json

variable {σ ν τ : Type}

/-- Brackets around parts of these lengths, with commas in between. -/
def listSize (sizes : List Nat) : Nat :=
  2 + sizes.sum + (sizes.length - 1)

/-- The length of an object with members of these lengths, a name's length
without its quotes. -/
def membersSize (members : List (Nat × Nat)) : Nat :=
  listSize (members.map fun m => m.1 + m.2 + 3)

/-- The length of a value's text. -/
def textSize (str : σ → Nat) (num : ν → Nat) : Json σ ν → Nat :=
  fold 4 (fun b => if b then 4 else 5) num (fun s => str s + 2) listSize
    (fun members => membersSize (members.map (Prod.map str id)))

section Size

variable (str : σ → Nat) (num : ν → Nat)

@[simp] theorem textSize_null : (null : Json σ ν).textSize str num = 4 := rfl

@[simp] theorem textSize_bool (b : Bool) :
    (bool b : Json σ ν).textSize str num = if b then 4 else 5 := rfl

@[simp] theorem textSize_num (n : ν) :
    (Json.num n : Json σ ν).textSize str num = num n := rfl

@[simp] theorem textSize_str (s : σ) :
    (Json.str s : Json σ ν).textSize str num = str s + 2 := rfl

@[simp] theorem textSize_arr (vs : List (Json σ ν)) :
    (arr vs).textSize str num = listSize (vs.map (textSize str num)) :=
  fold_arr ..

@[simp] theorem textSize_obj (ms : List (σ × Json σ ν)) :
    (obj ms).textSize str num =
      membersSize (ms.map fun m => (str m.1, m.2.textSize str num)) := by
  rw [textSize, fold_obj, List.map_map]
  rfl

end Size

theorem listSize_perm {xs ys : List Nat} (h : xs.Perm ys) :
    listSize xs = listSize ys := by
  rw [listSize, listSize, h.sum_nat, h.length_eq]

theorem sum_le_listSize (sizes : List Nat) : sizes.sum ≤ listSize sizes := by
  unfold listSize
  omega

/-- An object is no shorter than what one of its members holds. -/
theorem le_membersSize {members : List (Nat × Nat)} {m : Nat × Nat}
    (h : m ∈ members) : m.2 ≤ membersSize members := by
  have hpart : m.1 + m.2 + 3 ≤ (members.map fun m => m.1 + m.2 + 3).sum :=
    List.le_sum_of_mem (List.mem_map_of_mem h)
  have hsum := sum_le_listSize (members.map fun m => m.1 + m.2 + 3)
  unfold membersSize
  omega

theorem length_intercalate {sep : List τ} (hsep : sep.length = 1)
    (xs : List (List τ)) :
    (sep.intercalate xs).length =
      (xs.map List.length).sum + (xs.length - 1) := by
  induction xs with
  | nil => rfl
  | cons x xs ih =>
      cases xs with
      | nil => simp
      | cons y ys =>
          have hstep : sep.intercalate (x :: y :: ys) =
              x ++ sep ++ sep.intercalate (y :: ys) := by
            simp [List.intercalate]
          rw [hstep, List.length_append, List.length_append, ih, hsep]
          simp only [List.map_cons, List.sum_cons, List.length_cons]
          omega

/-- The text of a value is as long as `textSize` says. -/
theorem length_render {lit : Char → List τ}
    (hlit : ∀ c : Char, c.toNat < 0x80 → (lit c).length = 1)
    (str : σ → List τ) (num : ν → List τ) (v : Json σ ν) :
    (v.render lit str num).length =
      v.textSize (fun s => (str s).length) fun n => (num n).length := by
  have hword : ∀ w : List Char, (∀ c ∈ w, c.toNat < 0x80) →
      (w.flatMap lit).length = w.length := by
    intro w hw
    induction w with
    | nil => rfl
    | cons c w ih =>
        obtain ⟨hc, hw⟩ := List.forall_mem_cons.mp hw
        rw [List.flatMap_cons, List.length_append, hlit c hc, ih hw,
          List.length_cons, Nat.add_comm]
  have hquoted : ∀ s, (quoted lit str s).length = (str s).length + 2 := by
    intro s
    rw [quoted, List.length_append, List.length_append, hlit '"' (by decide)]
    omega
  induction v using ind with
  | null => exact hword _ (by simp)
  | bool b => cases b <;> exact hword _ (by simp)
  | num n => rfl
  | str s => exact hquoted s
  | arr vs ih =>
      have hparts : (vs.map (render lit str num)).map List.length = vs.map
          (textSize (fun s => (str s).length) fun n => (num n).length) := by
        rw [List.map_map]
        exact List.map_congr_left ih
      rw [render_arr, List.length_append, List.length_append,
        length_intercalate (hlit ',' (by decide)), hparts, textSize_arr,
        listSize, hlit '[' (by decide), hlit ']' (by decide), List.length_map,
        List.length_map]
      omega
  | obj ms ih =>
      have hparts : (ms.map fun m => quoted lit str m.1 ++ lit ':' ++
            m.2.render lit str num).map List.length =
          ms.map fun m => (str m.1).length +
            m.2.textSize (fun s => (str s).length) (fun n => (num n).length)
              + 3 := by
        rw [List.map_map]
        refine List.map_congr_left fun m hm => ?_
        have hcolon := hlit ':' (by decide)
        simp only [Function.comp_apply, List.length_append, hquoted, hcolon,
          ih m hm]
        omega
      rw [render_obj, List.length_append, List.length_append,
        length_intercalate (hlit ',' (by decide)), hparts, textSize_obj,
        membersSize, listSize, hlit '\x7b' (by decide),
        hlit '\x7d' (by decide), List.map_map, List.length_map,
        List.length_map]
      simp only [Function.comp_def]
      omega

/-- The bytes of a value's text, over characters. -/
theorem length_utf8_render (str : σ → List Char) (num : ν → List Char)
    (v : Json σ ν) :
    (utf8 (v.render lit1 str num)).length =
      v.textSize (fun s => (utf8 (str s)).length)
        fun n => (utf8 (num n)).length := by
  have hlit : ∀ c : Char, c.toNat < 0x80 → (utf8 (lit1 c)).length = 1 := by
    intro c hc
    rw [lit1, utf8_cons, utf8_nil, List.append_nil,
      String.length_utf8EncodeChar]
    exact Char.utf8Size_eq_one_iff.mpr (Nat.le_of_lt_succ hc)
  rw [utf8, flatMap_render]
  exact length_render hlit (fun s => utf8 (str s)) (fun n => utf8 (num n)) v

/-- The order of the members plays no part. -/
theorem textSize_sortKeys (str : σ → Nat) (num : ν → Nat) (r : σ → σ → Prop)
    [DecidableRel r] (v : Json σ ν) :
    (v.sortKeys r).textSize str num = v.textSize str num := by
  induction v using ind with
  | null => rfl
  | bool b => rfl
  | num n => rfl
  | str s => rfl
  | arr vs ih =>
      rw [sortKeys_arr, textSize_arr, textSize_arr, List.map_map]
      exact congrArg listSize (List.map_congr_left ih)
  | obj ms ih =>
      rw [sortKeys_obj, textSize_obj, textSize_obj, membersSize, membersSize,
        List.map_map, List.map_map]
      refine (listSize_perm ((perm_sortMembers r _).map _)).trans ?_
      rw [List.map_map]
      refine congrArg listSize (List.map_congr_left fun m hm => ?_)
      simp only [Function.comp_apply, Prod.map_fst, Prod.map_snd, id, ih m hm]

end NodeLink.Lib.Json
