import NodeLink.Lib.Prog
import Mathlib.Logic.Function.Basic

/-!
# Programs side by side

Sessions share a world. Each has a state of its own and runs a program; at
any moment any one of them takes its next action, a new one starts, or one is
given up, and the world may drift by itself. `may` restricts the actions that
are considered, by what the other sessions are about to do.

`swp` is the weakest precondition of a session's program among others: before
each action the others may have moved the world, as far as `R` of that action
lets them. The invariant rule turns such preconditions into a fact about
every action about to be taken in a reachable state. `Calls` is one call
inside a session, with what the others do meanwhile.
-/

namespace NodeLink.Lib

/-! ## Programs that may fail -/

namespace Prog

variable {Op : Type} {Ans : Op → Type} {ε α β : Type} {P : Op → Prop}

theorem uses_lift {x : Prog Op Ans α} (hx : x.Uses P) :
    (ExceptT.lift x : ExceptT ε (Prog Op Ans) α).run.Uses P := by
  induction x with
  | pure a => exact trivial
  | act o k ih => exact ⟨hx.1, fun b => ih b (hx.2 b)⟩

theorem uses_andThen {x : ExceptT ε (Prog Op Ans) α}
    {f : α → ExceptT ε (Prog Op Ans) β} (hx : x.run.Uses P)
    (hf : ∀ a, (f a).run.Uses P) : (x >>= f).run.Uses P := by
  rw [ExceptT.run_bind]
  refine hx.bind fun r => ?_
  cases r with
  | ok a => exact hf a
  | error e => exact trivial

theorem uses_tryCatch {x : ExceptT ε (Prog Op Ans) α}
    {handle : ε → ExceptT ε (Prog Op Ans) α} (hx : x.run.Uses P)
    (hh : ∀ e, (handle e).run.Uses P) : (tryCatch x handle).run.Uses P := by
  refine Uses.bind hx fun r => ?_
  cases r with
  | ok a => exact trivial
  | error e => exact hh e

end Prog

/-- How sessions move: what an action does to the world and to the acting
session, with what programs sessions start, how the world moves by itself. -/
structure Rules (Op : Type) (Ans : Op → Type) (W L : Type) where
  does : W → L → (o : Op) → Ans o → W → L → Prop
  starts : L → Prog Op Ans Unit → Prop
  drift : W → W → Prop

/-- The world and the sessions. -/
structure Crew (Op : Type) (Ans : Op → Type) (W L : Type) where
  world : W
  sessions : Nat → Option (L × Prog Op Ans Unit) := fun _ => none

namespace Crew

variable {Op : Type} {Ans : Op → Type} {W L α β : Type}

def seat (c : Crew Op Ans W L) (t : Nat) (s : Option (L × Prog Op Ans Unit)) :
    Crew Op Ans W L :=
  { c with sessions := Function.update c.sessions t s }

/-- The crew after session `t` has acted. -/
def moved (c : Crew Op Ans W L) (t : Nat) (w : W) (l : L)
    (p : Prog Op Ans Unit) : Crew Op Ans W L :=
  { world := w, sessions := Function.update c.sessions t (some (l, p)) }

/-- Session `t` takes `o` next. -/
def Next (c : Crew Op Ans W L) (t : Nat) (o : Op) : Prop :=
  ∃ l k, c.sessions t = some (l, .act o k)

section Step

variable (ru : Rules Op Ans W L) (may : Crew Op Ans W L → Nat → Op → Prop)

inductive Step (c : Crew Op Ans W L) : Crew Op Ans W L → Prop where
  | start {t l p} (hfree : c.sessions t = none) (hstarts : ru.starts l p) :
      Step c (c.seat t (some (l, p)))
  | act {t l o k a w' l'} (hs : c.sessions t = some (l, .act o k))
      (hmay : may c t o) (hdoes : ru.does c.world l o a w' l') :
      Step c (c.moved t w' l' (k a))
  | leave {t} : Step c (c.seat t none)
  | drift {w'} (hdrift : ru.drift c.world w') :
      Step c { c with world := w' }

/-- Any number of steps. -/
def Run : Crew Op Ans W L → Crew Op Ans W L → Prop :=
  Relation.ReflTransGen (Step ru may)

end Step

/-! ## The rule for programs among others -/

section Swp

variable (ru : Rules Op Ans W L) (I : W → Prop) (R : Op → W → W → Prop)
  (G : W → L → Op → Prop)

/-- The weakest precondition of a program whose session is interrupted. -/
def swp (Q : α → W → L → Prop) : Prog Op Ans α → W → L → Prop
  | .pure a, w, l => Q a w l
  | .act o k, w, l =>
    ∀ v, I v → R o w v →
      G v l o ∧ ∀ a v' l', ru.does v l o a v' l' → swp Q (k a) v' l'

variable {ru I R G} {Q Q' : α → W → L → Prop} {w : W} {l : L}

theorem swp_act {o : Op} {k : Ans o → Prog Op Ans α} :
    swp ru I R G Q (.act o k) w l ↔
      ∀ v, I v → R o w v →
        G v l o ∧ ∀ a v' l', ru.does v l o a v' l' →
          swp ru I R G Q (k a) v' l' := Iff.rfl

theorem swp_bind {Q : β → W → L → Prop} {x : Prog Op Ans α}
    {f : α → Prog Op Ans β} :
    swp ru I R G Q (x >>= f) w l ↔
      swp ru I R G (fun a w' l' => swp ru I R G Q (f a) w' l') x w l := by
  induction x generalizing w l with
  | pure a => exact Iff.rfl
  | act o k ih =>
      rw [Prog.act_bind, swp_act, swp_act]
      refine forall_congr' fun v => imp_congr_right fun _ =>
        imp_congr_right fun _ => and_congr_right' ?_
      exact forall_congr' fun a => forall_congr' fun v' =>
        forall_congr' fun l' => imp_congr_right fun _ => ih a

theorem swp_mono {x : Prog Op Ans α} (hx : swp ru I R G Q x w l)
    (h : ∀ a w' l', Q a w' l' → Q' a w' l') : swp ru I R G Q' x w l := by
  induction x generalizing w l with
  | pure a => exact h a w l hx
  | act o k ih =>
      refine swp_act.mpr fun v hv hr => ?_
      obtain ⟨hg, hk⟩ := swp_act.mp hx v hv hr
      exact ⟨hg, fun a v' l' hd => ih a (hk a v' l' hd)⟩

/-- A program whose actions need no guard. -/
theorem swp_of_uses {P : Op → Prop} {x : Prog Op Ans α} (hx : x.Uses P)
    (hg : ∀ v l o, P o → G v l o) :
    swp ru I R G (fun _ _ _ => True) x w l := by
  induction x generalizing w l with
  | pure a => exact trivial
  | act o k ih =>
      exact swp_act.mpr fun v hv hr =>
        ⟨hg v l o hx.1, fun a v' l' hd => ih a (hx.2 a)⟩

/-- The precondition of a program that may fail: `Q` is for its answers,
nothing is asked where it fails. -/
def safe {ε : Type} (ru : Rules Op Ans W L) (I : W → Prop)
    (R : Op → W → W → Prop) (G : W → L → Op → Prop) (Q : α → W → L → Prop)
    (x : ExceptT ε (Prog Op Ans) α) (w : W) (l : L) : Prop :=
  swp ru I R G (fun r w' l' => ∀ a, r = .ok a → Q a w' l') x.run w l

section Safe

variable {ε : Type} {x : ExceptT ε (Prog Op Ans) α}

theorem safe_pure {a : α} (h : Q a w l) :
    safe ru I R G Q (pure a : ExceptT ε (Prog Op Ans) α) w l := by
  intro b hb
  obtain rfl := Except.ok.inj hb
  exact h

theorem safe_throw {e : ε} :
    safe ru I R G Q (throw e : ExceptT ε (Prog Op Ans) α) w l :=
  fun _ hb => absurd hb nofun

theorem safe_bind {Q : β → W → L → Prop} {f : α → ExceptT ε (Prog Op Ans) β}
    (hx : safe ru I R G (fun a w' l' => safe ru I R G Q (f a) w' l') x w l) :
    safe ru I R G Q (x >>= f) w l := by
  rw [safe, ExceptT.run_bind, swp_bind]
  refine swp_mono hx fun r w' l' hr => ?_
  cases r with
  | ok a => exact hr a rfl
  | error e => exact fun _ hb => absurd hb nofun

theorem safe_ask {o : Op} {Q : Ans o → W → L → Prop}
    (h : ∀ v, I v → R o w v → G v l o ∧ ∀ a v' l', ru.does v l o a v' l' →
      Q a v' l') :
    safe ru I R G Q (ExceptT.lift (Prog.perform o) :
      ExceptT ε (Prog Op Ans) (Ans o)) w l := by
  refine swp_act.mpr fun v hv hr => ?_
  obtain ⟨hg, hk⟩ := h v hv hr
  refine ⟨hg, fun a v' l' hd b hb => ?_⟩
  obtain rfl := Except.ok.inj hb
  exact hk a v' l' hd

theorem safe_tryCatch {handle : ε → ExceptT ε (Prog Op Ans) α}
    (hx : safe ru I R G Q x w l)
    (hh : ∀ e v m, safe ru I R G Q (handle e) v m) :
    safe ru I R G Q (tryCatch x handle) w l := by
  refine swp_bind.mpr (swp_mono hx fun r v m hr => ?_)
  cases r with
  | ok a => exact hr
  | error e => exact hh e v m

end Safe

/-- The world and the sessions keep the invariant. -/
structure Good (ru : Rules Op Ans W L) (I : W → Prop) (R : Op → W → W → Prop)
    (G : W → L → Op → Prop) (c : Crew Op Ans W L) : Prop where
  world : I c.world
  session : ∀ t l p, c.sessions t = some (l, p) →
    swp ru I R G (fun _ _ _ => True) p c.world l

variable {may : Crew Op Ans W L → Nat → Op → Prop} {c c' : Crew Op Ans W L}

/-- What the others do leaves a session's precondition in place. -/
theorem swp_moved {p : Prog Op Ans Unit} {w w' : W}
    (htrans : ∀ o u v x, R o u v → R o v x → R o u x)
    (hp : swp ru I R G (fun _ _ _ => True) p w l)
    (hmoved : ∀ o k, p = .act o k → R o w w') :
    swp ru I R G (fun _ _ _ => True) p w' l := by
  cases p with
  | pure a => exact trivial
  | act o k =>
      exact swp_act.mpr fun v hv hr =>
        swp_act.mp hp v hv (htrans o _ _ _ (hmoved o k rfl) hr)

/-- The guard holds of the action a session takes next. -/
theorem Good.guard (hrefl : ∀ o w, R o w w) (h : Good ru I R G c) {t : Nat}
    {o : Op} {k : Ans o → Prog Op Ans Unit}
    (hs : c.sessions t = some (l, .act o k)) : G c.world l o :=
  (swp_act.mp (h.session t l _ hs) _ h.world (hrefl _ _)).1

/-- The invariant rule, where only guarded actions keep the invariant. -/
theorem good_run_guarded (hrefl : ∀ o w, R o w w)
    (htrans : ∀ o u v x, R o u v → R o v x → R o u x)
    (hdoes : ∀ w l o a w' l', I w → G w l o → ru.does w l o a w' l' → I w')
    (hdrift : ∀ w w', I w → ru.drift w w' → I w' ∧ ∀ o, R o w w')
    (hstarts : ∀ w l p, I w → ru.starts l p →
      swp ru I R G (fun _ _ _ => True) p w l)
    (hguar : ∀ (c : Crew Op Ans W L) t l o k a w' l', I c.world →
      c.sessions t = some (l, .act o k) → may c t o → G c.world l o →
      ru.does c.world l o a w' l' →
      ∀ u o', u ≠ t → c.Next u o' → R o' c.world w')
    (h : Good ru I R G c) (hrun : Run ru may c c') : Good ru I R G c' := by
  refine invariant_of_steps (I := Good ru I R G) (fun c c' hc hs => ?_) h hrun
  cases hs with
  | start hfree hp =>
      refine ⟨hc.world, fun u lu pu hu => ?_⟩
      simp only [seat, Function.update_apply] at hu
      split at hu
      · obtain ⟨rfl, rfl⟩ := Prod.mk.inj (Option.some.inj hu)
        exact hstarts _ _ _ hc.world hp
      · exact hc.session u lu pu hu
  | @act t l o k a w' l' hs hmay hd =>
      refine ⟨hdoes _ _ _ _ _ _ hc.world (hc.guard hrefl hs) hd,
        fun u lu pu hu => ?_⟩
      simp only [moved, Function.update_apply] at hu
      split at hu
      · obtain ⟨rfl, rfl⟩ := Prod.mk.inj (Option.some.inj hu)
        exact (swp_act.mp (hc.session t l _ hs) _ hc.world (hrefl _ _)).2 _ _ _ hd
      · next hne =>
          refine swp_moved htrans (hc.session u lu pu hu) fun o' k' hp => ?_
          exact hguar c t l o k a w' l' hc.world hs hmay (hc.guard hrefl hs) hd
            u o' hne ⟨lu, k', hp ▸ hu⟩
  | leave =>
      refine ⟨hc.world, fun u lu pu hu => ?_⟩
      simp only [seat, Function.update_apply] at hu
      split at hu
      · exact absurd hu nofun
      · exact hc.session u lu pu hu
  | drift hd =>
      obtain ⟨hI, hR⟩ := hdrift _ _ hc.world hd
      exact ⟨hI, fun u lu pu hu =>
        swp_moved htrans (hc.session u lu pu hu) fun o _ _ => hR o⟩

/-- The invariant rule. `hguar` is what the sessions owe each other. -/
theorem good_run (hrefl : ∀ o w, R o w w)
    (htrans : ∀ o u v x, R o u v → R o v x → R o u x)
    (hdoes : ∀ w l o a w' l', I w → ru.does w l o a w' l' → I w')
    (hdrift : ∀ w w', I w → ru.drift w w' → I w' ∧ ∀ o, R o w w')
    (hstarts : ∀ w l p, I w → ru.starts l p →
      swp ru I R G (fun _ _ _ => True) p w l)
    (hguar : ∀ (c : Crew Op Ans W L) t l o k a w' l', I c.world →
      c.sessions t = some (l, .act o k) → may c t o →
      ru.does c.world l o a w' l' →
      ∀ u o', u ≠ t → c.Next u o' → R o' c.world w')
    (h : Good ru I R G c) (hrun : Run ru may c c') : Good ru I R G c' :=
  good_run_guarded hrefl htrans
    (fun w l o a w' l' hw _ hd => hdoes w l o a w' l' hw hd)
    hdrift hstarts
    (fun c t l o k a w' l' hw hs hmay _ => hguar c t l o k a w' l' hw hs hmay)
    h hrun

end Swp

/-! ## One call -/

section Calls

variable (ru : Rules Op Ans W L) (may : Crew Op Ans W L → Nat → Op → Prop)
  (awaits : Op → Bool) (K : W → L → Prop) (t : Nat) (k : α → Prog Op Ans Unit)

/-- Session `t`, with state `l`, runs `p` to an answer for `k` to go on with,
taking the actions that are listed. Others step in only where an action
awaits, and `K` holds in each state on the way. -/
inductive Calls : Crew Op Ans W L → L → Prog Op Ans α →
    List ((o : Op) × Ans o) → α → Crew Op Ans W L → L → Prop where
  | done {c l b} : Calls c l (.pure b) [] b c l
  | act {c l o q a w' l' acts b c' l''} (hmay : may c t o)
      (hdoes : ru.does c.world l o a w' l') (hkeep : K w' l')
      (hrest : Calls (c.moved t w' l' (q a >>= k)) l' (q a) acts b c' l'') :
      Calls c l (.act o q) (⟨o, a⟩ :: acts) b c' l''
  | other {c l o q acts b d c' l'} (hawaits : awaits o = true)
      (hstep : Step ru may c d) (hsame : d.sessions t = c.sessions t)
      (hkeep : K d.world l) (hrest : Calls d l (.act o q) acts b c' l') :
      Calls c l (.act o q) acts b c' l'

variable {ru may awaits K t k} {c c' : Crew Op Ans W L} {l l' : L} {b : α}
  {acts : List ((o : Op) × Ans o)}

theorem Calls.pure_inv {a : α} (h : Calls ru may awaits K t k c l (pure a) acts b
    c' l') : acts = [] ∧ b = a ∧ c' = c ∧ l' = l := by
  cases h
  exact ⟨rfl, rfl, rfl, rfl⟩

/-- A call that begins with `o` takes it in some state, the present one where
`o` does not await. -/
theorem Calls.act_inv {o : Op} {q : Ans o → Prog Op Ans α}
    (h : Calls ru may awaits K t k c l (.act o q) acts b c' l')
    (hc : K c.world l) :
    ∃ (d : Crew Op Ans W L) (a : Ans o) (w : W) (m : L)
      (rest : List ((o : Op) × Ans o)),
      K d.world l ∧ (awaits o = false → d = c) ∧ ru.does d.world l o a w m ∧
        K w m ∧ acts = ⟨o, a⟩ :: rest ∧
        Calls ru may awaits K t k (d.moved t w m (q a >>= k)) m (q a) rest b
          c' l' := by
  generalize hp : Prog.act o q = p at h
  induction h generalizing o with
  | done => exact absurd hp nofun
  | act hmay hdoes hkeep hrest ih =>
      cases hp
      exact ⟨_, _, _, _, _, hc, fun _ => rfl, hdoes, hkeep, rfl, hrest⟩
  | other hawaits hstep hsame hkeep hrest ih =>
      cases hp
      obtain ⟨d, a, w, m, rest, hK, -, h⟩ := ih hkeep rfl
      exact ⟨d, a, w, m, rest, hK, fun hno => absurd hno (by simp [hawaits]), h⟩

end Calls

/-! ## Playing a run -/

/-- Answers for the actions, so that runs can be computed. -/
structure Replies (ru : Rules Op Ans W L) where
  answer : W → L → (o : Op) → Ans o × W × L
  lawful : ∀ w l o, ru.does w l o (answer w l o).1 (answer w l o).2.1
    (answer w l o).2.2

namespace Replies

variable {ru : Rules Op Ans W L} (re : Replies ru)

/-- Session `t` takes its next action, if it has one. -/
def turn (c : Crew Op Ans W L) (t : Nat) : Crew Op Ans W L :=
  match c.sessions t with
  | some (l, .act o k) =>
    c.moved t (re.answer c.world l o).2.1 (re.answer c.world l o).2.2
      (k (re.answer c.world l o).1)
  | _ => c

section

variable {may : Crew Op Ans W L → Nat → Op → Prop}

theorem turn_step (hmay : ∀ c t o, may c t o) (c : Crew Op Ans W L) (t : Nat) :
    Step ru may c (re.turn c t) ∨ re.turn c t = c := by
  rw [turn]
  split
  · next l o k hs => exact .inl (.act hs (hmay _ _ _) (re.lawful _ _ _))
  · exact .inr rfl

theorem run_turns (hmay : ∀ c t o, may c t o) (c : Crew Op Ans W L)
    (ts : List Nat) : Run ru may c (ts.foldl re.turn c) := by
  induction ts generalizing c with
  | nil => exact .refl
  | cons t ts ih =>
      rcases re.turn_step hmay c t with hstep | hsame
      · exact .head hstep (ih _)
      · rw [List.foldl_cons, hsame]
        exact ih c

end

end Replies

end Crew

end NodeLink.Lib
