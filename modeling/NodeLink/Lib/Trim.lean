import Mathlib.Data.List.DropRight
import Mathlib.Data.List.TakeWhile

/-!
# Trimming

Cutting the characters of a class off both ends of a text. A text that stays
as it is when a class is cut off stays as it is for every smaller class.
-/

namespace NodeLink.Lib

variable {α : Type} {p q : α → Bool} {s : List α}

/-- `s` without the elements of `p` at either end. -/
def trim (p : α → Bool) (s : List α) : List α := (s.dropWhile p).rdropWhile p

theorem trim_eq_self_iff :
    trim p s = s ↔ s.dropWhile p = s ∧ s.rdropWhile p = s := by
  constructor
  · intro h
    have hfront : s.dropWhile p = s := by
      refine (List.dropWhile_suffix p).eq_of_length_le ?_
      have hlen := (List.rdropWhile_prefix p (s.dropWhile p)).length_le
      rw [← trim, h] at hlen
      exact hlen
    rw [trim, hfront] at h
    exact ⟨hfront, h⟩
  · intro ⟨hfront, hback⟩
    rw [trim, hfront, hback]

/-- What `strings.TrimSpace` cuts off. -/
def goSpace (c : Char) : Bool :=
  decide (c.toNat ∈ [0x09, 0x0A, 0x0B, 0x0C, 0x0D, 0x20, 0x85, 0xA0, 0x1680,
      0x2028, 0x2029, 0x202F, 0x205F, 0x3000])
    || decide (0x2000 ≤ c.toNat ∧ c.toNat ≤ 0x200A)

/-- What `str.strip` cuts off: the four separators of ASCII too. -/
def pySpace (c : Char) : Bool :=
  goSpace c || decide (0x1C ≤ c.toNat ∧ c.toNat ≤ 0x1F)

/-- `strings.TrimSpace(s)` -/
def trimSpace (s : String) : String := String.ofList (trim goSpace s.toList)

/-- `s.strip()` -/
def strip (s : String) : String := String.ofList (trim pySpace s.toList)

theorem toList_eq_of_ofList {l : List Char} {s : String}
    (h : String.ofList l = s) : l = s.toList := by
  rw [← h, String.toList_ofList]

end NodeLink.Lib
