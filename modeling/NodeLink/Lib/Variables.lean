import NodeLink.Lib.Sessions

/-!
# Programs with variables

A session's program with variables that may fail. A failure leaves the
variables as they were last assigned, so that whoever catches it finds how far
the program got. `holds` is the precondition of such a program, for what it
must establish where it answers and where it fails.
-/

namespace NodeLink.Lib

/-- Programs over variables `σ` that may fail with an `ε`. -/
abbrev VarProg (σ ε Op : Type) (Ans : Op → Type) (α : Type) :=
  ExceptT ε (StateT σ (Prog Op Ans)) α

namespace VarProg

variable {σ ε Op : Type} {Ans : Op → Type} {α : Type}

/-- An action whose answer may be a failure. -/
def ask {Res : Op → Type} (o : Op) :
    VarProg σ ε Op (fun o => Except ε (Res o)) (Res o) :=
  ExceptT.mk (StateT.lift (Prog.perform o))

/-- The same, without variables. -/
def request {Res : Op → Type} (o : Op) :
    ExceptT ε (Prog Op fun o => Except ε (Res o)) (Res o) :=
  ExceptT.mk (Prog.perform o)

def ofExcept (x : Except ε α) : VarProg σ ε Op Ans α := ExceptT.mk (pure x)

end VarProg

namespace Crew

section Holds

variable {σ ε Op : Type} {Ans : Op → Type} {W L α β : Type}
  (ru : Rules Op Ans W L) (I : W → Prop) (R : Op → W → W → Prop)
  (G : W → L → Op → Prop)

def holds (Q : Except ε α → σ → W → L → Prop) (x : VarProg σ ε Op Ans α)
    (s : σ) (w : W) (l : L) : Prop :=
  swp ru I R G (fun r w' l' => Q r.1 r.2 w' l') (x.run.run s) w l

variable {ru I R G} {Q Q' : Except ε α → σ → W → L → Prop}
  {x : VarProg σ ε Op Ans α} {s : σ} {w : W} {l : L}

theorem holds_mono (hx : holds ru I R G Q x s w l)
    (h : ∀ r s' w' l', Q r s' w' l' → Q' r s' w' l') :
    holds ru I R G Q' x s w l :=
  swp_mono hx fun r w' l' hr => h r.1 r.2 w' l' hr

theorem holds_ofExcept {a : Except ε α} (h : Q a s w l) :
    holds ru I R G Q (VarProg.ofExcept a) s w l := h

/-- Where `x` fails, the whole fails with the variables it leaves. -/
theorem holds_bind {Q : Except ε β → σ → W → L → Prop}
    {f : α → VarProg σ ε Op Ans β}
    (hx : holds ru I R G (fun r s' w' l' =>
      (∀ a, r = .ok a → holds ru I R G Q (f a) s' w' l') ∧
        ∀ e, r = .error e → Q (.error e) s' w' l') x s w l) :
    holds ru I R G Q (x >>= f) s w l := by
  rw [holds, ExceptT.run_bind, StateT.run_bind, swp_bind]
  refine swp_mono hx fun r w' l' hr => ?_
  obtain ⟨r, s'⟩ := r
  cases r with
  | ok a => exact hr.1 a rfl
  | error e => exact hr.2 e rfl

theorem holds_tryCatch {handle : ε → VarProg σ ε Op Ans α}
    (hx : holds ru I R G (fun r s' w' l' =>
      (∀ a, r = .ok a → Q (.ok a) s' w' l') ∧
        ∀ e, r = .error e → holds ru I R G Q (handle e) s' w' l') x s w l) :
    holds ru I R G Q (tryCatch x handle) s w l := by
  refine swp_bind.mpr (swp_mono hx fun r w' l' hr => ?_)
  obtain ⟨r, s'⟩ := r
  cases r with
  | ok a => exact hr.1 a rfl
  | error e => exact hr.2 e rfl

end Holds

section Ask

variable {σ ε Op : Type} {Res : Op → Type} {W L : Type}
  {ru : Rules Op (fun o => Except ε (Res o)) W L} {I : W → Prop}
  {R : Op → W → W → Prop} {G : W → L → Op → Prop} {s : σ} {w : W} {l : L}

theorem holds_ask {o : Op} {Q : Except ε (Res o) → σ → W → L → Prop}
    (h : ∀ v, I v → R o w v → G v l o ∧ ∀ a v' l', ru.does v l o a v' l' →
      Q a s v' l') :
    holds ru I R G Q (VarProg.ask o) s w l := h

/-- The same action in a program without variables. -/
theorem safe_request {o : Op} {Q : Res o → W → L → Prop}
    (h : ∀ v, I v → R o w v → G v l o ∧ ∀ a v' l', ru.does v l o (.ok a) v' l' →
      Q a v' l') :
    safe ru I R G Q (VarProg.request o : ExceptT ε (Prog Op _) (Res o)) w l := by
  refine swp_act.mpr fun v hv hr => ?_
  obtain ⟨hg, hdoes⟩ := h v hv hr
  refine ⟨hg, fun a v' l' hd b hb => ?_⟩
  obtain rfl : a = .ok b := hb
  exact hdoes b v' l' hd

end Ask

section Lift

variable {ε Op : Type} {Ans : Op → Type} {W L α : Type} {ru : Rules Op Ans W L}
  {I : W → Prop} {R : Op → W → W → Prop} {G : W → L → Op → Prop} {w : W} {l : L}

theorem safe_ofExcept {Q : α → W → L → Prop} {x : Except ε α}
    (h : ∀ a, x = .ok a → Q a w l) :
    safe ru I R G Q (ExceptT.mk (pure x) : ExceptT ε (Prog Op Ans) α) w l := h

/-- A program whose failures are its answers. -/
theorem safe_lift {Q : α → W → L → Prop} {x : Prog Op Ans α}
    (h : swp ru I R G Q x w l) :
    safe ru I R G Q (ExceptT.lift x : ExceptT ε (Prog Op Ans) α) w l := by
  induction x generalizing w l with
  | pure a =>
      intro b hb
      obtain rfl := Except.ok.inj hb
      exact h
  | act o k ih =>
      refine swp_act.mpr fun v hv hr => ?_
      obtain ⟨hg, hk⟩ := swp_act.mp h v hv hr
      exact ⟨hg, fun a v' l' hd => ih a (hk a v' l' hd)⟩

end Lift

end Crew

end NodeLink.Lib
