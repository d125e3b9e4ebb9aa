import NodeLink.Lib.JsonRoundTrip
import NodeLink.Lib.PyText

/-!
# What the server's JSON text says to another program

`dumps` writes over code points. Encoded to UTF-8 and read as characters,
its text is the compact text of the value with every string replaced by the
characters it spells (`onTheWire`), provided no string holds a surrogate.
That proviso is exactly what makes the encoder succeed.
-/

namespace NodeLink.Lib

/-- A letter of a string as `dumps` writes it, over characters. -/
def pyEscapeChar : Char → List Char :=
  escapeUnit lit1 Char.toNat (fun _ => false)

def numberText : PyNum → String
  | .int i => String.ofList (intDigits i)
  | .float repr => textOf repr

/-- The value another program reads. -/
def onTheWire (v : PyJson) : Json String String := v.map textOf numberText

/-- No lone surrogate. -/
def Scalar (s : PyStr) : Prop := s.all isScalar = true

def IsInt : PyNum → Prop
  | .int _ => True
  | .float _ => False

theorem readable_pyEscapeChar : Readable pyEscapeChar :=
  readable_escapeUnit (by simp)

theorem scalar_iff {s : PyStr} :
    Scalar s ↔ ∀ c ∈ s, isScalar c = true := List.all_eq_true

/-! ## Letters -/

/-- Escapes are ASCII, so only the letter itself can be a surrogate. -/
theorem mem_pyEscape {c t : CodePoint} (h : t ∈ pyEscape c) :
    t = c ∨ isScalar t = true := by
  unfold pyEscape escapeUnit at h
  split at h
  · next e _ =>
      simp only [List.singleton_append, List.mem_cons, List.not_mem_nil,
        or_false] at h
      rcases h with rfl | rfl <;> exact Or.inr (isScalar_ofChar _)
  · split at h
    · simp only [unicodeEscape, List.cons_append,
        List.nil_append, List.mem_cons, List.not_mem_nil, or_false] at h
      rcases h with rfl | rfl | rfl | rfl | rfl | rfl <;>
        exact Or.inr (isScalar_ofChar _)
    · exact Or.inl (List.mem_singleton.mp h)

theorem shortEscape_surrogate {n : Nat} (h : ¬ n.isValidChar) :
    shortEscape n = none ∧ ¬ n < 0x20 := by
  have hn : 0x80 ≤ n := by
    by_contra hlt
    exact h (Or.inl (by omega))
  unfold shortEscape
  split_ifs <;> first | omega | exact ⟨rfl, by omega⟩

/-- A surrogate is not escaped, so it stays in the text. -/
theorem mem_pyEscape_self {c : CodePoint} (h : isScalar c = false) :
    c ∈ pyEscape c := by
  have hs := shortEscape_surrogate (of_decide_eq_false h)
  unfold pyEscape escapeUnit
  rw [hs.1]
  simp [hs.2]

theorem scalar_flatMap_pyEscape {s : PyStr} :
    Scalar (s.flatMap pyEscape) ↔ Scalar s := by
  rw [scalar_iff, scalar_iff]
  constructor
  · intro h c hc
    by_contra hn
    rw [Bool.not_eq_true] at hn
    have := h c (List.mem_flatMap.mpr ⟨c, hc, mem_pyEscape_self hn⟩)
    rw [hn] at this
    cases this
  · intro h t ht
    obtain ⟨c, hc, hct⟩ := List.mem_flatMap.mp ht
    rcases mem_pyEscape hct with rfl | ht
    · exact h t hc
    · exact ht

theorem map_toChar_pyEscape {c : CodePoint} (h : isScalar c = true) :
    (pyEscape c).map toChar = pyEscapeChar (toChar c) := by
  unfold pyEscape pyEscapeChar escapeUnit
  rw [toNat_toChar h]
  split
  · simp [lit1]
  · split
    · simp [unicodeEscape, lit1]
    · rfl

theorem map_toChar_flatMap {s : PyStr} (h : Scalar s) :
    (s.flatMap pyEscape).map toChar = (textOf s).toList.flatMap pyEscapeChar := by
  rw [textOf, String.toList_ofList, List.map_flatMap, List.flatMap_map]
  rw [scalar_iff] at h
  induction s with
  | nil => rfl
  | cons c s ih =>
      rw [List.flatMap_cons, List.flatMap_cons,
        map_toChar_pyEscape (h c (by simp)), ih fun d hd => h d (by simp [hd])]

/-! ## Whole texts -/

theorem numberText_toList {n : PyNum} (h : IsInt n) :
    (pyNumber n).map toChar = (numberText n).toList := by
  cases n with
  | float r => exact h.elim
  | int i =>
      simp [pyNumber, numberText, List.map_map, Function.comp_def]

/-- Key order is the same before and after. -/
theorem pyLe_iff {s t : PyStr} (hs : Scalar s) (ht : Scalar t) :
    pyLe s t ↔
      lexLe UInt8.toNat (utf8 (textOf s).toList) (utf8 (textOf t).toList)
        = true := by
  rw [scalar_iff] at hs ht
  rw [pyLe, lexLe_utf8, textOf, textOf, String.toList_ofList,
    String.toList_ofList, lexLe_map (k := Fin.val)]
  · intro c hc
    exact toNat_toChar (hs c hc)
  · intro c hc
    exact toNat_toChar (ht c hc)

theorem render_toChar {v : PyJson} (hv : v.All Scalar IsInt) :
    (v.render (fun c => [ofChar c]) (fun s => s.flatMap pyEscape)
      pyNumber).map toChar = jsonText pyEscapeChar (onTheWire v) := by
  rw [List.map_eq_flatMap, Json.flatMap_render, jsonText, onTheWire,
    Json.render_map]
  refine Json.render_congr ?_ ?_ ?_ hv
  · intro c _
    simp [lit1]
  · intro s hs
    rw [← List.map_eq_flatMap]
    exact map_toChar_flatMap hs
  · intro n hn
    rw [← List.map_eq_flatMap]
    exact numberText_toList hn

/-- A text that encodes has no surrogate in any string of its value. -/
theorem all_scalar_of_dumps {b : Bool} {v : PyJson} (h : Scalar (dumps b v))
    (hint : v.All (fun _ => True) IsInt) : v.All Scalar IsInt := by
  have hsorted : (if b then v.sortKeys pyLe else v).All Scalar
      (fun _ => True) := by
    have hall := Json.all_of_forall_mem_render (scalar_iff.mp h)
    refine hall.imp ?_ (fun _ _ => trivial)
    intro s hs
    exact scalar_flatMap_pyEscape.mp (scalar_iff.mpr hs)
  have hv : v.All Scalar (fun _ => True) := by
    cases b with
    | false => exact hsorted
    | true => exact Json.all_of_all_sortKeys pyLe hsorted
  exact hv.and hint

theorem scalar_dumps {b : Bool} {v : PyJson} (h : v.All Scalar IsInt) :
    Scalar (dumps b v) := by
  have hsorted : (if b then v.sortKeys pyLe else v).All Scalar IsInt := by
    cases b with
    | false => exact h
    | true => exact h.sortKeys pyLe
  rw [scalar_iff]
  refine Json.forall_mem_render ?_ (hsorted.imp ?_ ?_)
  · intro c _ t ht
    rw [List.mem_singleton.mp ht]
    exact isScalar_ofChar c
  · intro s hs
    exact scalar_iff.mp (scalar_flatMap_pyEscape.mpr hs)
  · intro n hn
    cases n with
    | float r => exact hn.elim
    | int i =>
        intro t ht
        obtain ⟨d, -, rfl⟩ := List.mem_map.mp ht
        exact isScalar_ofChar d

end NodeLink.Lib
