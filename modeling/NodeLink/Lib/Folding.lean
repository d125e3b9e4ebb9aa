import Mathlib
import NodeLink.Lib.Trim

/-!
# Case folding

A full case folding, as `str.casefold` has it: every character is folded on
its own, white space stays what it is, and nothing else becomes white space.
So a text keeps its outer white space when it is folded, and of two texts that
fold alike both are trimmed or neither.
-/

namespace NodeLink.Lib

structure CaseFolding where
  fold : Char → List Char
  fold_ne_nil : ∀ c, fold c ≠ []
  fold_space : ∀ c, pySpace c = true → fold c = [c]
  fold_not_space : ∀ c, pySpace c = false → ∀ d ∈ fold c, pySpace d = false

/-! ## Trimmed texts -/

variable {l m : List Char} {s t : String}

theorem trim_eq_self_iff_ends {p : Char → Bool} :
    trim p l = l ↔ l.head?.map p ≠ some true ∧ l.getLast?.map p ≠ some true := by
  rw [trim_eq_self_iff]
  have hhead : l.dropWhile p = l ↔ l.head?.map p ≠ some true := by
    rw [List.dropWhile_eq_self_iff]
    cases l with
    | nil => simp
    | cons c l => simp
  have hback : l.rdropWhile p = l ↔ l.getLast?.map p ≠ some true := by
    rw [List.rdropWhile_eq_self_iff]
    cases l using List.reverseRecOn with
    | nil => simp
    | append_singleton l c => simp
  rw [hhead, hback]

theorem trim_trim {p : Char → Bool} : trim p (trim p l) = trim p l := by
  refine trim_eq_self_iff.mpr ⟨?_, List.rdropWhile_idempotent _ _⟩
  refine List.dropWhile_eq_self_iff.mpr fun hl hp => ?_
  have hprefix : trim p l <+: l.dropWhile p := List.rdropWhile_prefix p _
  have hget := List.IsPrefix.getElem hprefix hl
  have hfront : (l.dropWhile p).dropWhile p = l.dropWhile p :=
    List.dropWhile_idempotent _ _
  have hlen : 0 < (l.dropWhile p).length :=
    Nat.lt_of_lt_of_le hl hprefix.length_le
  refine List.dropWhile_eq_self_iff.mp hfront hlen ?_
  rw [← hget]
  exact hp

theorem strip_eq_self_iff : strip s = s ↔ trim pySpace s.toList = s.toList := by
  constructor
  · exact toList_eq_of_ofList
  · intro h
    rw [strip, h, String.ofList_toList]

theorem strip_strip : strip (strip s) = strip s := by
  rw [strip_eq_self_iff, strip, String.toList_ofList, trim_trim]

/-! ## Folded texts -/

namespace CaseFolding

variable (F : CaseFolding)

def foldAll (l : List Char) : List Char := l.flatMap F.fold

/-- `s.casefold()` -/
def casefold (s : String) : String := String.ofList (F.foldAll s.toList)

variable {F}

@[simp] theorem foldAll_nil : F.foldAll [] = [] := rfl

@[simp] theorem foldAll_cons (c : Char) :
    F.foldAll (c :: l) = F.fold c ++ F.foldAll l := List.flatMap_cons

theorem foldAll_append : F.foldAll (l ++ m) = F.foldAll l ++ F.foldAll m :=
  List.flatMap_append

theorem casefold_eq_iff :
    F.casefold s = F.casefold t ↔ F.foldAll s.toList = F.foldAll t.toList := by
  rw [casefold, casefold, String.ofList_inj]

/-- Whether white space stands in front does not change. -/
theorem head_foldAll :
    (F.foldAll l).head?.map pySpace = l.head?.map pySpace := by
  cases l with
  | nil => rfl
  | cons c l =>
      rw [foldAll_cons]
      cases hc : pySpace c with
      | true => simp [F.fold_space c hc, hc]
      | false =>
          cases hfold : F.fold c with
          | nil => exact absurd hfold (F.fold_ne_nil c)
          | cons d ds =>
              have hd := F.fold_not_space c hc d (by rw [hfold]; simp)
              simp [hc, hd]

/-- Nor whether it stands at the end. -/
theorem getLast_foldAll :
    (F.foldAll l).getLast?.map pySpace = l.getLast?.map pySpace := by
  cases l using List.reverseRecOn with
  | nil => rfl
  | append_singleton l c =>
      rw [foldAll_append, foldAll_cons, foldAll_nil, List.append_nil]
      cases hc : pySpace c with
      | true => simp [F.fold_space c hc, hc]
      | false =>
          have hlast : ∃ d, (F.fold c).getLast? = some d ∧ d ∈ F.fold c := by
            cases hfold : (F.fold c).getLast? with
            | none =>
                exact absurd (List.getLast?_eq_none_iff.mp hfold)
                  (F.fold_ne_nil c)
            | some d => exact ⟨d, rfl, List.mem_of_getLast? hfold⟩
          obtain ⟨d, hd, hmem⟩ := hlast
          have hspace := F.fold_not_space c hc d hmem
          rw [List.getLast?_append, List.getLast?_append, hd]
          simp [hc, hspace]

/-- Texts that fold alike are stripped alike. -/
theorem strip_iff_of_casefold (h : F.casefold s = F.casefold t) :
    strip s = s ↔ strip t = t := by
  rw [casefold_eq_iff] at h
  have hfold : ∀ u : String, strip u = u ↔
      (F.foldAll u.toList).head?.map pySpace ≠ some true ∧
      (F.foldAll u.toList).getLast?.map pySpace ≠ some true := by
    intro u
    rw [strip_eq_self_iff, trim_eq_self_iff_ends, head_foldAll, getLast_foldAll]
  rw [hfold, hfold, h]

end CaseFolding

def asciiLower (c : Char) : Char :=
  if 65 ≤ c.toNat ∧ c.toNat ≤ 90 then Char.ofNat (c.toNat + 32) else c

theorem toNat_asciiLower {c : Char} (h : 65 ≤ c.toNat ∧ c.toNat ≤ 90) :
    (asciiLower c).toNat = c.toNat + 32 := by
  have hvalid : (c.toNat + 32).isValidChar := by
    left
    omega
  rw [asciiLower, if_pos h, Char.ofNat, dif_pos hvalid]
  rfl

theorem asciiLower_space (c : Char) (hc : pySpace c = true) :
    [asciiLower c] = [c] := by
  rw [asciiLower, if_neg]
  intro hupper
  simp [pySpace, goSpace] at hc
  omega

theorem asciiLower_not_space (c : Char) (hc : pySpace c = false) :
    ∀ d ∈ [asciiLower c], pySpace d = false := by
  intro d hd
  rw [List.mem_singleton.mp hd]
  by_cases h : 65 ≤ c.toNat ∧ c.toNat ≤ 90
  · have hd := toNat_asciiLower h
    simp [pySpace, goSpace]
    omega
  · rw [asciiLower, if_neg h]
    exact hc

/-- The folding of ASCII. -/
def asciiFolding : CaseFolding where
  fold c := [asciiLower c]
  fold_ne_nil c := List.cons_ne_nil _ _
  fold_space := asciiLower_space
  fold_not_space := asciiLower_not_space

end NodeLink.Lib
