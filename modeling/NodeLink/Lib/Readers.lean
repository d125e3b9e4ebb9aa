import Mathlib.Data.List.Basic

/-!
# Readers of self-delimiting formats

A reader takes a value off the front of a list and hands back the rest. It
reads a format when what it takes are the texts of the format, all of them and
no others; a format that has a reader leaves no choice of where a text ends.
-/

namespace NodeLink.Lib

variable {α β γ : Type} {read : List α → Option (β × List α)}
  {format : β → List α → Prop}

/-- What the reader takes off the front are the texts of the format. -/
def ReadsAs (read : List α → Option (β × List α)) (format : β → List α → Prop) :
    Prop :=
  ∀ data v rest, read data = some (v, rest) ↔
    ∃ text, format v text ∧ data = text ++ rest

theorem ReadsAs.read_append (h : ReadsAs read format) {v : β} {text : List α}
    (ht : format v text) (rest : List α) :
    read (text ++ rest) = some (v, rest) :=
  (h _ _ _).mpr ⟨text, ht, rfl⟩

theorem ReadsAs.exists_text (h : ReadsAs read format) {data rest : List α}
    {v : β} (hr : read data = some (v, rest)) :
    ∃ text, format v text ∧ data = text ++ rest :=
  (h _ _ _).mp hr

/-- Two texts in front of one list are the same text of the same value. -/
theorem ReadsAs.unique (h : ReadsAs read format) {v v' : β}
    {text text' rest rest' : List α} (ht : format v text)
    (ht' : format v' text') (heq : text ++ rest = text' ++ rest') :
    v = v' ∧ text = text' ∧ rest = rest' := by
  have hread := h.read_append ht rest
  rw [heq, h.read_append ht' rest'] at hread
  obtain ⟨rfl, rfl⟩ := Prod.mk.inj (Option.some.inj hread)
  exact ⟨rfl, List.append_cancel_right heq, rfl⟩

end NodeLink.Lib
