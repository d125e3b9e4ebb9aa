import Mathlib.Data.List.Forall2
import NodeLink.Lib.Checks

/-!
# Loops that may fail

`foldlM` and `mapM` over a list, in code that stops at the first error: when
they get to the end, and what they leave. The last lemma is about loops that
count something: as long as nothing is counted, every element is judged on
the view the loop began with.
-/

namespace NodeLink.Lib

variable {ε α β γ : Type}

section Fold

variable {f : β → α → Except ε β} {b c : β} {a : α} {l l' : List α}

theorem foldlM_nil_eq_ok : ([] : List α).foldlM f b = .ok c ↔ b = c :=
  ⟨fun h => Except.ok.inj h, fun h => congrArg _ h⟩

theorem foldlM_cons_eq_ok :
    (a :: l).foldlM f b = .ok c ↔
      ∃ b', f b a = .ok b' ∧ l.foldlM f b' = .ok c := by
  rw [List.foldlM_cons, bind_eq_ok]

theorem foldlM_append_eq_ok :
    (l ++ l').foldlM f b = .ok c ↔
      ∃ b', l.foldlM f b = .ok b' ∧ l'.foldlM f b' = .ok c := by
  rw [List.foldlM_append, bind_eq_ok]

/-- A loop gets to its end when every step it gets to succeeds. -/
theorem foldlM_isOk_iff :
    (∃ c, l.foldlM f b = .ok c) ↔
      ∀ before a after, l = before ++ a :: after →
        ∀ b', before.foldlM f b = .ok b' → ∃ b'', f b' a = .ok b'' := by
  constructor
  · rintro ⟨c, h⟩ before a after rfl b' hb'
    obtain ⟨mid, hmid, hrest⟩ := foldlM_append_eq_ok.mp h
    obtain rfl := Except.ok.inj (hb'.symm.trans hmid)
    obtain ⟨b'', hb'', -⟩ := foldlM_cons_eq_ok.mp hrest
    exact ⟨b'', hb''⟩
  · intro h
    induction l generalizing b with
    | nil => exact ⟨b, foldlM_nil_eq_ok.mpr rfl⟩
    | cons a l ih =>
        obtain ⟨b', hb'⟩ := h [] a l rfl b (foldlM_nil_eq_ok.mpr rfl)
        obtain ⟨c, hc⟩ := ih fun before x after hl b'' hb'' =>
          h (a :: before) x after (by rw [hl, List.cons_append]) b''
            (foldlM_cons_eq_ok.mpr ⟨b', hb', hb''⟩)
        exact ⟨c, foldlM_cons_eq_ok.mpr ⟨b', hb', hc⟩⟩

/-- What every step keeps, the loop keeps. -/
theorem foldlM_preserves {P : β → Prop}
    (hstep : ∀ b a b', a ∈ l → f b a = .ok b' → P b → P b')
    (h : l.foldlM f b = .ok c) (hb : P b) : P c := by
  induction l generalizing b with
  | nil =>
      rw [← foldlM_nil_eq_ok.mp h]
      exact hb
  | cons a l ih =>
      obtain ⟨b', hb', hrest⟩ := foldlM_cons_eq_ok.mp h
      exact ih (fun b a b' ha => hstep b a b' (List.mem_cons_of_mem _ ha)) hrest
        (hstep b a b' List.mem_cons_self hb' hb)

/-- A loop whose steps count an event or leave the view alone counts
something just when the event holds of an element in the view it began with. -/
theorem foldlM_counts (view : β → γ) (count : β → Nat) (Event : γ → α → Prop)
    (hstep : ∀ b a b', f b a = .ok b' →
      Event (view b) a ∧ count b < count b' ∨
        ¬ Event (view b) a ∧ count b' = count b ∧ view b' = view b)
    (h : l.foldlM f b = .ok c) :
    (∃ a ∈ l, Event (view b) a) ∧ count b < count c ∨
      (∀ a ∈ l, ¬ Event (view b) a) ∧ count c = count b ∧ view c = view b := by
  induction l generalizing b with
  | nil =>
      rw [← foldlM_nil_eq_ok.mp h]
      exact .inr ⟨fun a ha => absurd ha List.not_mem_nil, rfl, rfl⟩
  | cons a l ih =>
      obtain ⟨b', hb', hrest⟩ := foldlM_cons_eq_ok.mp h
      obtain ⟨hevent, hlt⟩ | ⟨hnone, hcount, hview⟩ := hstep b a b' hb'
      · refine .inl ⟨⟨a, List.mem_cons_self, hevent⟩, ?_⟩
        obtain ⟨-, hle⟩ | ⟨-, hle, -⟩ := ih hrest <;> omega
      · obtain ⟨⟨x, hx, hevent⟩, hlt⟩ | ⟨hrestNone, hrestCount, hrestView⟩ := ih hrest
        · rw [hview] at hevent
          exact .inl ⟨⟨x, List.mem_cons_of_mem _ hx, hevent⟩, by omega⟩
        · rw [hview] at hrestNone hrestView
          refine .inr ⟨?_, by omega, hrestView⟩
          exact List.forall_mem_cons.mpr ⟨hnone, hrestNone⟩

end Fold

section FoldOption

variable {f : β → α → Option β} {b c : β} {l : List α}

/-- The same of a loop that ends without a reason. -/
theorem foldlM_some_preserves {P : β → Prop}
    (hstep : ∀ b a b', a ∈ l → f b a = some b' → P b → P b')
    (h : l.foldlM f b = some c) (hb : P b) : P c := by
  induction l generalizing b with
  | nil =>
      rw [← Option.some.inj h]
      exact hb
  | cons a l ih =>
      rw [List.foldlM_cons] at h
      obtain ⟨b', hb', hrest⟩ := Option.bind_eq_some_iff.mp h
      exact ih (fun b a b' ha => hstep b a b' (List.mem_cons_of_mem _ ha)) hrest
        (hstep b a b' List.mem_cons_self hb' hb)

end FoldOption

section Map

variable {f : α → Except ε β} {l : List α} {bs : List β}

theorem mapM_eq_ok_iff :
    l.mapM f = .ok bs ↔ List.Forall₂ (fun a b => f a = .ok b) l bs := by
  induction l generalizing bs with
  | nil =>
      rw [List.forall₂_nil_left_iff, List.mapM_nil]
      exact ⟨fun h => (Except.ok.inj h).symm, fun h => by rw [h]; rfl⟩
  | cons a l ih =>
      simp only [List.mapM_cons, bind_eq_ok, ih, List.forall₂_cons_left_iff]
      constructor
      · rintro ⟨b, hb, bs', hbs', h⟩
        exact ⟨b, bs', hb, hbs', (Except.ok.inj h).symm⟩
      · rintro ⟨b, bs', hb, hbs', rfl⟩
        exact ⟨b, hb, bs', hbs', rfl⟩

/-- Every element has a value. -/
theorem mapM_isOk_iff :
    (∃ bs, l.mapM f = .ok bs) ↔ ∀ a ∈ l, ∃ b, f a = .ok b := by
  simp only [mapM_eq_ok_iff]
  constructor
  · rintro ⟨bs, h⟩ a ha
    obtain ⟨i, hi, rfl⟩ := List.mem_iff_getElem.mp ha
    exact ⟨_, h.get hi (h.length_eq ▸ hi)⟩
  · intro h
    induction l with
    | nil => exact ⟨[], .nil⟩
    | cons a l ih =>
        obtain ⟨b, hb⟩ := h a List.mem_cons_self
        obtain ⟨bs, hbs⟩ := ih fun x hx => h x (List.mem_cons_of_mem _ hx)
        exact ⟨b :: bs, .cons hb hbs⟩

end Map

end NodeLink.Lib
