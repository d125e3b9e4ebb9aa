import Mathlib.Logic.Relation

/-!
# Programs that may crash between any two actions

A program is a tree: an answer, or one action and what to do with its
answer. A world says how an action may complete and what an action cut
short by a crash may leave behind. `wp` is the weakest precondition of a
program for a postcondition, a guard and a crash condition: the guard holds
of each action where it is about to be taken, the crash condition before
each action and after each action that was cut short.

A machine runs such programs for ever: after a crash it boots, when a
program is done it may start another, and it may crash at any time. The
invariant rule at the end reduces a property of every reachable state of a
machine, and of every action about to be taken in one, to the preconditions
of its programs.
-/

namespace NodeLink.Lib

/-- A program over actions `Op`, an action `o` being answered by an
`Ans o`. -/
inductive Prog (Op : Type) (Ans : Op → Type) (α : Type) where
  | pure (a : α)
  | act (o : Op) (k : Ans o → Prog Op Ans α)

namespace Prog

variable {Op : Type} {Ans : Op → Type} {α β : Type}

/-- Run `x`, then `f` on its answer. -/
def bind : Prog Op Ans α → (α → Prog Op Ans β) → Prog Op Ans β
  | .pure a, f => f a
  | .act o k, f => .act o fun b => (k b).bind f

instance : Monad (Prog Op Ans) where
  pure := Prog.pure
  bind := Prog.bind

/-- One action. -/
def perform (o : Op) : Prog Op Ans (Ans o) := .act o .pure

@[simp] theorem pure_bind (a : α) (f : α → Prog Op Ans β) :
    (Pure.pure a : Prog Op Ans α) >>= f = f a := rfl

@[simp] theorem perform_bind (o : Op) (f : Ans o → Prog Op Ans β) :
    (perform o : Prog Op Ans _) >>= f = .act o f := rfl

theorem act_bind (o : Op) (k : Ans o → Prog Op Ans α)
    (f : α → Prog Op Ans β) :
    (Prog.act o k : Prog Op Ans α) >>= f = .act o fun b => k b >>= f := rfl

end Prog

/-- Every action the program may take is one `P` holds of. -/
def Prog.Uses {Op : Type} {Ans : Op → Type} {α : Type} (P : Op → Prop) :
    Prog Op Ans α → Prop
  | .pure _ => True
  | .act o k => P o ∧ ∀ a, Prog.Uses P (k a)

theorem Prog.Uses.bind {Op : Type} {Ans : Op → Type} {α β : Type}
    {P : Op → Prop} {x : Prog Op Ans α} {f : α → Prog Op Ans β} (hx : x.Uses P)
    (hf : ∀ a, (f a).Uses P) : (x >>= f).Uses P := by
  induction x with
  | pure a => exact hf a
  | act o k ih => exact ⟨hx.1, fun b => ih b (hx.2 b)⟩

/-- How actions change the world: `does` relates the world before an action
to its answer and the world after, `torn` to a world a crash in the middle
of it may leave. -/
structure World (Op : Type) (Ans : Op → Type) (W : Type) where
  does : W → (o : Op) → Ans o → W → Prop
  torn : W → Op → W → Prop

section Wp

variable {Op : Type} {Ans : Op → Type} {W α β : Type}

/-- The weakest precondition for the postcondition `Q`, the guard `G` and the
crash condition `C`. -/
def wp (wd : World Op Ans W) (G : W → Op → Prop) (C : W → Prop)
    (Q : α → W → Prop) : Prog Op Ans α → W → Prop
  | .pure a, w => Q a w
  | .act o k, w =>
    G w o ∧ C w ∧ (∀ w', wd.torn w o w' → C w') ∧
      ∀ a w', wd.does w o a w' → wp wd G C Q (k a) w'

variable {wd : World Op Ans W} {G : W → Op → Prop} {C : W → Prop}
  {Q Q' : α → W → Prop} {R : β → W → Prop} {w : W}

@[simp] theorem wp_pure {a : α} :
    wp wd G C Q (pure a : Prog Op Ans α) w ↔ Q a w := Iff.rfl

theorem wp_act {o : Op} {k : Ans o → Prog Op Ans α} :
    wp wd G C Q (.act o k) w ↔
      G w o ∧ C w ∧ (∀ w', wd.torn w o w' → C w') ∧
        ∀ a w', wd.does w o a w' → wp wd G C Q (k a) w' := Iff.rfl

theorem wp_bind {x : Prog Op Ans α} {f : α → Prog Op Ans β} :
    wp wd G C R (x >>= f) w ↔
      wp wd G C (fun a w' => wp wd G C R (f a) w') x w := by
  induction x generalizing w with
  | pure a => exact Iff.rfl
  | act o k ih =>
      rw [Prog.act_bind, wp_act, wp_act]
      refine and_congr_right' (and_congr_right' (and_congr_right' ?_))
      exact forall_congr' fun a => forall_congr' fun w' =>
        imp_congr_right fun _ => ih a

theorem wp_mono {x : Prog Op Ans α} (hx : wp wd G C Q x w)
    (h : ∀ a w', Q a w' → Q' a w') : wp wd G C Q' x w := by
  induction x generalizing w with
  | pure a => exact h a w hx
  | act o k ih =>
      obtain ⟨hg, hc, ht, hk⟩ := wp_act.mp hx
      exact wp_act.mpr ⟨hg, hc, ht, fun a w' hd => ih a (hk a w' hd)⟩

/-- A program followed by another, by what the first one leaves. -/
theorem wp_seq {x : Prog Op Ans α} {f : α → Prog Op Ans β}
    (hx : wp wd G C Q x w) (hf : ∀ a w', Q a w' → wp wd G C R (f a) w') :
    wp wd G C R (x >>= f) w := wp_bind.mpr (wp_mono hx hf)

/-- A program of actions that keep `R`, a preorder of worlds within the crash
condition. -/
theorem wp_of_uses {P : Op → Prop} {R : W → W → Prop} {x : Prog Op Ans α}
    {w : W} (hx : x.Uses P) (hrefl : ∀ w, R w w)
    (htrans : ∀ {u v w}, R u v → R v w → R u w) (hc : ∀ v, R w v → C v)
    (hg : ∀ v o, P o → R w v → G v o)
    (htorn : ∀ v o v', P o → wd.torn v o v' → R v v')
    (hdoes : ∀ v o a v', P o → wd.does v o a v' → R v v') :
    wp wd G C (fun _ v => R w v) x w := by
  have run : ∀ v, R w v → wp wd G C (fun _ v => R w v) x v := by
    induction x with
    | pure a => exact fun v hv => hv
    | act o k ih =>
        intro v hv
        refine wp_act.mpr ⟨hg v o hx.1 hv, hc v hv, ?_, ?_⟩
        · exact fun v' ht => hc v' (htrans hv (htorn v o v' hx.1 ht))
        · exact fun a v' hd =>
            ih a (hx.2 a) v' (htrans hv (hdoes v o a v' hx.1 hd))
  exact run w (hrefl w)

/-- `p`, run in `w`, may end with an answer in a world. -/
def RunsTo (wd : World Op Ans W) : Prog Op Ans α → W → α → W → Prop
  | .pure a, w, b, w' => b = a ∧ w' = w
  | .act o k, w, b, w' => ∃ a v, wd.does w o a v ∧ RunsTo wd (k a) v b w'

theorem runsTo_bind {x : Prog Op Ans α} {f : α → Prog Op Ans β} {a : α}
    {b : β} {w v w' : W} (hx : RunsTo wd x w a v) (hf : RunsTo wd (f a) v b w') :
    RunsTo wd (x >>= f) w b w' := by
  induction x generalizing w with
  | pure c =>
      obtain ⟨rfl, rfl⟩ := hx
      exact hf
  | act o k ih =>
      obtain ⟨c, u, hd, hx⟩ := hx
      exact ⟨c, u, hd, ih c hx⟩

theorem wp_runsTo {x : Prog Op Ans α} {a : α} {w' : W} (hx : wp wd G C Q x w)
    (hr : RunsTo wd x w a w') : Q a w' := by
  induction x generalizing w with
  | pure b =>
      obtain ⟨rfl, rfl⟩ := hr
      exact hx
  | act o k ih =>
      obtain ⟨b, v, hd, hr⟩ := hr
      exact ih b (hx.2.2.2 b v hd) hr

/-- Where every action can complete, every program ends. -/
theorem exists_runsTo (htotal : ∀ w o, ∃ a w', wd.does w o a w')
    (x : Prog Op Ans α) (w : W) : ∃ a w', RunsTo wd x w a w' := by
  induction x generalizing w with
  | pure a => exact ⟨a, w, rfl, rfl⟩
  | act o k ih =>
      obtain ⟨b, v, hd⟩ := htotal w o
      obtain ⟨a, w', hr⟩ := ih b v
      exact ⟨a, w', b, v, hd, hr⟩

end Wp

/-- The invariant rule of a step relation. -/
theorem invariant_of_steps {S : Type} {Step : S → S → Prop} {I : S → Prop}
    (hstep : ∀ c c', I c → Step c c' → I c') {c c' : S} (h : I c)
    (hr : Relation.ReflTransGen Step c c') : I c' := by
  induction hr with
  | refl => exact h
  | tail _ hs ih => exact hstep _ _ ih hs

/-! ## Machines -/

/-- What a machine is doing. -/
inductive Proc (Op : Type) (Ans : Op → Type) (S : Type) where
  | down
  | idle (s : S)
  | busy (p : Prog Op Ans (Option S))

/-- A machine: the program it boots with, and the programs it may start
when idle. A program that answers `none` stops the machine. -/
structure Machine (Op : Type) (Ans : Op → Type) (S : Type) where
  boot : Prog Op Ans (Option S)
  starts : S → Prog Op Ans (Option S) → Prop

section Run

variable {Op : Type} {Ans : Op → Type} {W S : Type}

/-- One step of a machine in its world. -/
inductive Machine.Step (mc : Machine Op Ans S) (wd : World Op Ans W) :
    W × Proc Op Ans S → W × Proc Op Ans S → Prop where
  | boot {w} : Step mc wd (w, .down) (w, .busy mc.boot)
  | start {w s p} (h : mc.starts s p) : Step mc wd (w, .idle s) (w, .busy p)
  | act {w o k a w'} (h : wd.does w o a w') :
      Step mc wd (w, .busy (.act o k)) (w', .busy (k a))
  | settle {w s} : Step mc wd (w, .busy (.pure (some s))) (w, .idle s)
  | stop {w} : Step mc wd (w, .busy (.pure none)) (w, .down)
  | crash {w p} : Step mc wd (w, p) (w, .down)
  | tear {w o k w'} (h : wd.torn w o w') :
      Step mc wd (w, .busy (.act o k)) (w', .down)

/-- Any number of steps. -/
def Machine.Run (mc : Machine Op Ans S) (wd : World Op Ans W) :
    W × Proc Op Ans S → W × Proc Op Ans S → Prop :=
  Relation.ReflTransGen (mc.Step wd)

/-- A way for every action to complete in the worlds it covers: programs can
be played against it. -/
structure Script (wd : World Op Ans W) where
  answer : W → (o : Op) → Ans o × W
  covers : W → Prop
  lawful : ∀ w o, covers w → wd.does w o (answer w o).1 (answer w o).2
  closed : ∀ w o, covers w → covers (answer w o).2

namespace Script

variable {wd : World Op Ans W} (sc : Script wd)

/-- The answer of a program and the world it leaves. -/
def play {α : Type} : Prog Op Ans α → W → α × W
  | .pure a, w => (a, w)
  | .act o k, w => play (k (sc.answer w o).1) (sc.answer w o).2

theorem covers_play {α : Type} (p : Prog Op Ans α) {w : W} (h : sc.covers w) :
    sc.covers (sc.play p w).2 := by
  induction p generalizing w with
  | pure a => exact h
  | act o k ih => exact ih _ (sc.closed w o h)

/-- Playing a program is a run of any machine that is busy with it. -/
theorem run_play (mc : Machine Op Ans S) (p : Prog Op Ans (Option S)) {w : W}
    (h : sc.covers w) :
    mc.Run wd (w, .busy p)
      ((sc.play p w).2, .busy (.pure (sc.play p w).1)) := by
  induction p generalizing w with
  | pure a => exact .refl
  | act o k ih => exact .head (.act (sc.lawful w o h)) (ih _ (sc.closed w o h))

end Script

/-- A machine between programs: down, or idle. -/
def Proc.ofOption : Option S → Proc Op Ans S
  | none => .down
  | some s => .idle s

namespace Script

variable {wd : World Op Ans W} (sc : Script wd)

/-- Boot, or run the next program, to its end. -/
def turn (mc : Machine Op Ans S) (next : S → Prog Op Ans (Option S)) :
    W × Option S → W × Option S
  | (w, none) => (sc.play mc.boot w).swap
  | (w, some s) => (sc.play (next s) w).swap

theorem covers_turn {mc : Machine Op Ans S} {next : S → Prog Op Ans (Option S)}
    {c : W × Option S} (h : sc.covers c.1) :
    sc.covers (sc.turn mc next c).1 := by
  obtain ⟨w, r⟩ := c
  cases r with
  | none => exact sc.covers_play mc.boot h
  | some s => exact sc.covers_play (next s) h

theorem run_turn {mc : Machine Op Ans S} {next : S → Prog Op Ans (Option S)}
    (hnext : ∀ s, mc.starts s (next s)) {c : W × Option S}
    (h : sc.covers c.1) :
    mc.Run wd (c.1, .ofOption c.2)
      ((sc.turn mc next c).1, .ofOption (sc.turn mc next c).2) := by
  have settle : ∀ w (r : Option S),
      mc.Step wd (w, .busy (.pure r)) (w, .ofOption r) := by
    rintro w (- | s)
    · exact .stop
    · exact .settle
  obtain ⟨w, r⟩ := c
  cases r with
  | none => exact ((sc.run_play mc mc.boot h).head .boot).tail (settle _ _)
  | some s =>
      exact ((sc.run_play mc (next s) h).head (.start (hnext s))).tail
        (settle _ _)

end Script

/-- A way for some actions to complete: a program can be played as long as each
of its actions is given an answer. -/
structure Tryout (wd : World Op Ans W) where
  answer : W → (o : Op) → Option (Ans o × W)
  lawful : ∀ w o a w', answer w o = some (a, w') → wd.does w o a w'

namespace Tryout

variable {wd : World Op Ans W} (tr : Tryout wd)

def play {α : Type} : Prog Op Ans α → W → Option (α × W)
  | .pure a, w => some (a, w)
  | .act o k, w => (tr.answer w o).bind fun x => play (k x.1) x.2

theorem run_play (mc : Machine Op Ans S) {p : Prog Op Ans (Option S)}
    {w w' : W} {res : Option S} (h : tr.play p w = some (res, w')) :
    mc.Run wd (w, .busy p) (w', .ofOption res) := by
  induction p generalizing w with
  | pure a =>
      cases h
      cases res with
      | none => exact .single .stop
      | some s => exact .single .settle
  | act o k ih =>
      obtain ⟨⟨a, v⟩, hanswer, hrest⟩ := Option.bind_eq_some_iff.mp h
      exact .head (.act (tr.lawful w o a v hanswer)) (ih a hrest)

/-- A program, or with none a crash and a boot. -/
def turn (mc : Machine Op Ans S) (c : W × Option S) :
    Option (S → Prog Op Ans (Option S)) → Option (W × Option S)
  | none => (tr.play mc.boot c.1).map Prod.swap
  | some p => c.2.bind fun s => (tr.play (p s) c.1).map Prod.swap

theorem run_turn {mc : Machine Op Ans S} {c c' : W × Option S}
    {p : Option (S → Prog Op Ans (Option S))}
    (hp : ∀ f, p = some f → ∀ s, mc.starts s (f s))
    (h : tr.turn mc c p = some c') :
    mc.Run wd (c.1, .ofOption c.2) (c'.1, .ofOption c'.2) := by
  cases p with
  | none =>
      obtain ⟨⟨res, w⟩, hplay, rfl⟩ := Option.map_eq_some_iff.mp h
      exact ((tr.run_play mc hplay).head .boot).head .crash
  | some f =>
      obtain ⟨s, hs, hrest⟩ := Option.bind_eq_some_iff.mp h
      obtain ⟨⟨res, w⟩, hplay, rfl⟩ := Option.map_eq_some_iff.mp hrest
      rw [hs]
      exact (tr.run_play mc hplay).head (.start (hp f rfl s))

def turns (mc : Machine Op Ans S) :
    W × Option S → List (Option (S → Prog Op Ans (Option S))) →
      Option (W × Option S)
  | c, [] => some c
  | c, p :: rest => (tr.turn mc c p).bind fun c' => turns mc c' rest

theorem run_turns {mc : Machine Op Ans S} {c c' : W × Option S}
    {ps : List (Option (S → Prog Op Ans (Option S)))}
    (hps : ∀ f, some f ∈ ps → ∀ s, mc.starts s (f s))
    (h : tr.turns mc c ps = some c') :
    mc.Run wd (c.1, .ofOption c.2) (c'.1, .ofOption c'.2) := by
  induction ps generalizing c with
  | nil =>
      cases h
      exact .refl
  | cons p rest ih =>
      obtain ⟨d, hturn, hrest⟩ := Option.bind_eq_some_iff.mp h
      have hfirst := tr.run_turn
        (fun f hf => hps f (hf ▸ List.mem_cons_self)) hturn
      exact hfirst.trans (ih (fun f hf => hps f (List.mem_cons_of_mem p hf)) hrest)

end Tryout

/-- What a finished program must leave: the invariant of the idle state, or
the crash condition when the machine stops. -/
def Settled (C : W → Prop) (I : S → W → Prop) : Option S → W → Prop
  | none, w => C w
  | some s, w => I s w

/-- The invariant of a machine's state. -/
def Machine.Good (wd : World Op Ans W) (G : W → Op → Prop) (C : W → Prop)
    (I : S → W → Prop) : W × Proc Op Ans S → Prop
  | (w, .down) => C w
  | (w, .idle s) => I s w
  | (w, .busy p) => C w ∧ wp wd G C (Settled C I) p w

variable {mc : Machine Op Ans S} {wd : World Op Ans W} {G : W → Op → Prop}
  {C : W → Prop} {I : S → W → Prop}

/-- The action a machine is about to take is guarded. -/
theorem Machine.Good.guard {w : W} {o : Op} {k : Ans o → Prog Op Ans (Option S)}
    (h : Machine.Good wd G C I (w, .busy (.act o k))) : G w o := h.2.1

theorem Machine.Good.crash (hI : ∀ s w, I s w → C w)
    {c : W × Proc Op Ans S} (h : Machine.Good wd G C I c) : C c.1 := by
  obtain ⟨w, p⟩ := c
  cases p with
  | down => exact h
  | idle s => exact hI s w h
  | busy p => exact h.1

theorem settled_crash (hI : ∀ s w, I s w → C w) {r : Option S} {w : W}
    (h : Settled C I r w) : C w := by
  cases r with
  | none => exact h
  | some s => exact hI s w h

theorem wp_crash (hI : ∀ s w, I s w → C w) {p : Prog Op Ans (Option S)} {w : W}
    (h : wp wd G C (Settled C I) p w) : C w := by
  cases p with
  | pure r => exact settled_crash hI h
  | act o k => exact h.2.1

/-- One step keeps the invariant when booting establishes it and every
program that may start keeps it. -/
theorem Machine.good_step (hI : ∀ s w, I s w → C w)
    (hboot : ∀ w, C w → wp wd G C (Settled C I) mc.boot w)
    (hstart : ∀ s p w, I s w → mc.starts s p → wp wd G C (Settled C I) p w)
    {c c' : W × Proc Op Ans S} (h : Machine.Good wd G C I c)
    (hs : mc.Step wd c c') : Machine.Good wd G C I c' := by
  cases hs with
  | boot => exact ⟨h, hboot _ h⟩
  | start hp => exact ⟨hI _ _ h, hstart _ _ _ h hp⟩
  | act hd =>
      have hk := (wp_act.mp h.2).2.2.2 _ _ hd
      exact ⟨wp_crash hI hk, hk⟩
  | settle => exact h.2
  | stop => exact h.1
  | crash => exact h.crash hI
  | tear ht => exact (wp_act.mp h.2).2.2.1 _ ht

/-- The invariant rule: every reachable state satisfies it. -/
theorem Machine.good_run (hI : ∀ s w, I s w → C w)
    (hboot : ∀ w, C w → wp wd G C (Settled C I) mc.boot w)
    (hstart : ∀ s p w, I s w → mc.starts s p → wp wd G C (Settled C I) p w)
    {c c' : W × Proc Op Ans S} (h : Machine.Good wd G C I c)
    (hr : mc.Run wd c c') : Machine.Good wd G C I c' :=
  invariant_of_steps (I := Machine.Good wd G C I)
    (fun _ _ hc hs => Machine.good_step hI hboot hstart hc hs) h hr

end Run

end NodeLink.Lib
