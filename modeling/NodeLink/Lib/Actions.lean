import Mathlib.Data.List.Basic

/-!
# Labelled actions and what is under way

A system whose actions carry all that is chosen, so that a run is a list of
actions and can be played. What holds at the start and is kept by every clear
action holds after every run of clear actions. The transactions under way are
numbered; each number stands for one.
-/

namespace NodeLink.Lib

/-- Where an action can be taken, and what it leads to. -/
structure System (S A : Type) where
  enabled : S → A → Bool
  next : S → A → S

namespace System

variable {S A : Type} (m : System S A) {s : S}

/-- Any number of actions, each where it is enabled. -/
def runs (s : S) : List A → Bool
  | [] => true
  | a :: acts => m.enabled s a && runs (m.next s a) acts

def run (s : S) (acts : List A) : S := acts.foldl m.next s

/-- Every action of a run is clear where it is taken. -/
def Each (clear : S → A → Prop) (s : S) : List A → Prop
  | [] => True
  | a :: acts => clear s a ∧ Each clear (m.next s a) acts

instance decidableEach {clear : S → A → Prop} [∀ s a, Decidable (clear s a)] :
    (s : S) → (acts : List A) → Decidable (m.Each clear s acts)
  | _, [] => isTrue trivial
  | s, a :: acts =>
    have : Decidable (m.Each clear (m.next s a) acts) :=
      decidableEach (m.next s a) acts
    inferInstanceAs (Decidable (clear s a ∧ m.Each clear (m.next s a) acts))

variable {m}

@[simp] theorem run_nil : m.run s [] = s := rfl

@[simp] theorem run_cons (a : A) (acts : List A) :
    m.run s (a :: acts) = m.run (m.next s a) acts := rfl

theorem run_append (pre post : List A) :
    m.run s (pre ++ post) = m.run (m.run s pre) post := List.foldl_append

theorem runs_cons {a : A} {acts : List A} :
    m.runs s (a :: acts) = true ↔
      m.enabled s a = true ∧ m.runs (m.next s a) acts = true := by
  rw [runs, Bool.and_eq_true]

theorem runs_append {pre post : List A} :
    m.runs s (pre ++ post) = true ↔
      m.runs s pre = true ∧ m.runs (m.run s pre) post = true := by
  induction pre generalizing s with
  | nil => simp [runs]
  | cons a pre ih =>
      rw [List.cons_append, runs_cons, runs_cons, ih, run_cons, and_assoc]

theorem each_append {clear : S → A → Prop} {pre post : List A} :
    m.Each clear s (pre ++ post) ↔
      m.Each clear s pre ∧ m.Each clear (m.run s pre) post := by
  induction pre generalizing s with
  | nil => simp [Each]
  | cons a pre ih =>
      rw [List.cons_append, Each, Each, ih, run_cons, and_assoc]

theorem each_of_forall {clear : S → A → Prop} {acts : List A}
    (h : ∀ a ∈ acts, ∀ s, clear s a) : m.Each clear s acts := by
  induction acts generalizing s with
  | nil => trivial
  | cons a acts ih =>
      exact ⟨h a List.mem_cons_self s,
        ih fun b hb => h b (List.mem_cons_of_mem a hb)⟩

/-- An invariant that every clear action keeps. -/
theorem invariant_run {I : S → Prop} {clear : S → A → Prop}
    (hstep : ∀ s a, I s → m.enabled s a = true → clear s a → I (m.next s a))
    (h : I s) {acts : List A} (hruns : m.runs s acts = true)
    (hclear : m.Each clear s acts) : I (m.run s acts) := by
  induction acts generalizing s with
  | nil => exact h
  | cons a acts ih =>
      obtain ⟨henabled, hrest⟩ := runs_cons.mp hruns
      exact ih (hstep s a h henabled hclear.1) hrest hclear.2

end System

/-- What is under way, by number. -/
structure Open (X : Type) where
  entries : List (Nat × X) := []
  deriving DecidableEq, Repr

namespace Open

variable {X : Type} {o : Open X} {t u : Nat} {x y : X}

def get (o : Open X) (t : Nat) : Option X :=
  (o.entries.find? fun e => decide (e.1 = t)).map (·.2)

def close (o : Open X) (t : Nat) : Open X :=
  ⟨o.entries.filter fun e => decide (e.1 ≠ t)⟩

def put (o : Open X) (t : Nat) (x : X) : Open X :=
  ⟨(t, x) :: (o.close t).entries⟩

/-- Another than `t` is so. -/
def other (o : Open X) (t : Nat) (p : X → Bool) : Bool :=
  o.entries.any fun e => decide (e.1 ≠ t) && p e.2

/-- `x` is under way as number `t`. -/
def Has (o : Open X) (t : Nat) (x : X) : Prop := (t, x) ∈ o.entries

theorem not_has_empty : ¬ Has ({} : Open X) t x := List.not_mem_nil

theorem has_of_get (h : o.get t = some x) : o.Has t x := by
  obtain ⟨⟨u, y⟩, hfind, hxy⟩ := Option.map_eq_some_iff.mp h
  have hut : u = t := of_decide_eq_true
    (List.find?_some (p := fun e : Nat × X => decide (e.1 = t)) hfind)
  have hmem := List.mem_of_find?_eq_some hfind
  rw [hut] at hmem
  rw [← hxy]
  exact hmem

theorem not_has_of_get (h : o.get t = none) : ¬ o.Has t x := by
  intro hx
  rw [get, Option.map_eq_none_iff, List.find?_eq_none] at h
  exact h (t, x) hx (decide_eq_true rfl)

theorem has_close : (o.close t).Has u x ↔ o.Has u x ∧ u ≠ t := by
  simp [Has, close]

theorem has_put :
    (o.put t x).Has u y ↔ (u = t ∧ y = x) ∨ (o.Has u y ∧ u ≠ t) := by
  have hclose : (u, y) ∈ (o.close t).entries ↔ o.Has u y ∧ u ≠ t := has_close
  rw [Has, put, List.mem_cons, hclose, Prod.mk.injEq]

@[simp] theorem get_put : (o.put t x).get t = some x := by
  simp [get, put]

theorem get_close_of_ne (h : u ≠ t) : (o.close t).get u = o.get u := by
  have hfind : ∀ l : List (Nat × X),
      (l.filter fun e => decide (e.1 ≠ t)).find? (fun e => decide (e.1 = u)) =
        l.find? fun e => decide (e.1 = u) := by
    intro l
    induction l with
    | nil => rfl
    | cons e l ih =>
        by_cases he : e.1 = t
        · have hne : e.1 ≠ u := fun hu => h (hu.symm.trans he)
          rw [List.filter_cons_of_neg (by simp [he]), ih,
            List.find?_cons_of_neg (by simp [hne])]
        · rw [List.filter_cons_of_pos (by simp [he]), List.find?_cons,
            List.find?_cons, ih]
  rw [get, get, close, hfind]

theorem get_put_of_ne (h : u ≠ t) : (o.put t x).get u = o.get u := by
  have hclose := get_close_of_ne (o := o) h
  rw [get] at hclose ⊢
  simp only [put, List.find?_cons, decide_eq_false h.symm]
  exact hclose

theorem get_close : (o.close t).get t = none := by
  simp only [get, close, Option.map_eq_none_iff, List.find?_eq_none]
  intro e he hdec
  exact of_decide_eq_true (List.mem_filter.mp he).2 (of_decide_eq_true hdec)

/-- No other is so. -/
theorem not_of_other {p : X → Bool} (h : o.other t p = false) (hx : o.Has u x)
    (hne : u ≠ t) : p x = false := by
  by_contra hp
  rw [Bool.not_eq_false] at hp
  have htrue : o.other t p = true := by
    refine List.any_eq_true.mpr ⟨(u, x), hx, ?_⟩
    rw [Bool.and_eq_true]
    exact ⟨decide_eq_true hne, hp⟩
  rw [h] at htrue
  cases htrue

end Open

/-- A column is written when it differs from the copy that was read. -/
def written {α : Type} (same : Bool) (new current : α) : α :=
  if same then current else new

end NodeLink.Lib
