import NodeLink.Proofs.ChallengeUses

/-!
# Signature counters

An assertion is accepted when it reports 0 or more than the counter that was
read, and what it reports is stored for the next one to be compared with. The
exemption is for authenticators that do not count, but it is decided by the
report and not by the counter that is stored: a 0 is stored over any counter,
and all the earlier values pass again.

Runs where a 0 is reported over a stored 0 only, where the counter that was read
still stands when an assertion is accepted and no other of the authenticator is
under way, and where no accepted assertion is rolled back, accept only counters
that grow.
-/

namespace NodeLink.Proofs.SignatureCounters

open Lib Server.WebAuthn Server.MfaCeremonies ChallengeUses Base64Url

variable {cfg : Config} {s s' : State} {x y z : Txn} {t u v : Nat}
  {c : Challenge} {k r : Credential} {a b : Assertion}

/-! ## The invariant -/

/-- After a counter that is not 0, every counter of the authenticator is
greater; the newest comes first. -/
def Growing (accepted : List (Nat × Nat)) : Prop :=
  accepted.Pairwise fun later earlier =>
    later.1 = earlier.1 → earlier.2 ≠ 0 → earlier.2 < later.2

/-- What a request under way may rely on. -/
structure Sound (s : State) (x : Txn) : Prop where
  registered : ∀ k, x.registered = some k →
    k.id < s.credentialIds ∧ ∀ r ∈ s.credentials, r.id ≠ k.id
  early : early x.stage = true → x.accepted = none
  looked : ∀ c k, x.stage = .looked c k → ∃ r ∈ s.credentials, r.id = k.id
  /-- The counter it read still stands, and it accepted the greatest. -/
  accepted : ∀ a, x.accepted = some a →
    (∃ r ∈ s.credentials, r.id = a.credential.id) ∧
    (∀ r ∈ s.credentials, r.id = a.credential.id →
      r.signCount = a.credential.signCount) ∧
    ∀ e ∈ s.accepted, e.1 = a.credential.id → e.2 ≤ a.result.signCount

/-- Two requests register and have accepted different authenticators. -/
structure Apart (x y : Txn) : Prop where
  registered : ∀ k r, x.registered = some k → y.registered = some r → k.id ≠ r.id
  accepted : ∀ a b, x.accepted = some a → y.accepted = some b →
    a.credential.id ≠ b.credential.id

theorem Apart.symm (h : Apart x y) : Apart y x where
  registered k r hk hr := (h.registered r k hr hk).symm
  accepted a b ha hb := (h.accepted b a hb ha).symm

structure Inv (s : State) : Prop where
  each : ∀ t x, s.txns.get t = some x → Sound s x
  apart : ∀ t x u y, s.txns.get t = some x → s.txns.get u = some y → u ≠ t →
    Apart x y
  old : ∀ r ∈ s.credentials, r.id < s.credentialIds
  known : ∀ e ∈ s.accepted, ∃ r ∈ s.credentials, r.id = e.1
  /-- A stored counter is one that was accepted last, unless that is not
  committed yet. -/
  base : ∀ r ∈ s.credentials, ∀ e ∈ s.accepted, e.1 = r.id → e.2 ≤ r.signCount ∨
    ∃ t x a, s.txns.get t = some x ∧ x.accepted = some a ∧ a.credential.id = r.id
  growing : Growing s.accepted

theorem inv_initial (clock : Int) : Inv { clock } where
  each t x h := by cases h
  apart t x u y h := by cases h
  old r hr := by cases hr
  known e he := by cases he
  base r hr := by cases hr
  growing := List.Pairwise.nil

/-! ## One request goes on -/

theorem Inv.put (h : Inv s)
    (hx : ∀ x, s.txns.get t = some x → ∀ a, x.accepted = some a →
      y.accepted = some a)
    (hy : Sound s y)
    (hapart : ∀ u z, s.txns.get u = some z → u ≠ t → Apart y z) :
    Inv { s with txns := s.txns.put t y } where
  each u z hz := by
    by_cases hu : u = t
    · rw [hu, Open.get_put] at hz
      cases hz
      exact ⟨hy.registered, hy.early, hy.looked, hy.accepted⟩
    · rw [Open.get_put_of_ne hu] at hz
      have hz := h.each u z hz
      exact ⟨hz.registered, hz.early, hz.looked, hz.accepted⟩
  apart u z v w hz hw hne := by
    by_cases hu : u = t
    · have hv : v ≠ t := fun hv => hne (hv.trans hu.symm)
      rw [hu, Open.get_put] at hz
      rw [Open.get_put_of_ne hv] at hw
      cases hz
      exact hapart v w hw hv
    · rw [Open.get_put_of_ne hu] at hz
      by_cases hv : v = t
      · rw [hv, Open.get_put] at hw
        cases hw
        exact (hapart u z hz hu).symm
      · rw [Open.get_put_of_ne hv] at hw
        exact h.apart u z v w hz hw hne
  old := h.old
  known := h.known
  base r hr e he heq := by
    rcases h.base r hr e he heq with hle | ⟨u, z, a, hz, ha, hid⟩
    · exact Or.inl hle
    · by_cases hu : u = t
      · rw [hu] at hz
        exact Or.inr ⟨t, y, a, Open.get_put, hx z hz a ha, hid⟩
      · exact Or.inr ⟨u, z, a, (Open.get_put_of_ne hu).trans hz, ha, hid⟩
  growing := h.growing

/-- A step that writes no authenticator and looks none up. -/
structure Passes (x y : Txn) : Prop where
  registered : y.registered = x.registered
  accepted : y.accepted = x.accepted
  early : early y.stage = true → early x.stage = true
  looked : ∀ c k, y.stage = .looked c k → x.stage = .looked c k

theorem Sound.passes (h : Sound s x) (hpass : Passes x y) : Sound s y where
  registered k hk := h.registered k (hpass.registered ▸ hk)
  early hearly := hpass.accepted.trans (h.early (hpass.early hearly))
  looked c k hstage := h.looked c k (hpass.looked c k hstage)
  accepted a ha := h.accepted a (hpass.accepted ▸ ha)

theorem Apart.passes (h : Apart x z) (hpass : Passes x y) : Apart y z where
  registered k r hk hr := h.registered k r (hpass.registered ▸ hk) hr
  accepted a b ha hb := h.accepted a b (hpass.accepted ▸ ha) hb

theorem Inv.go_of_passes (h : Inv s) {step : Txn → Txn}
    (hstep : ∀ x, s.txns.get t = some x → Passes x (step x)) :
    Inv (s.go t step) := by
  unfold State.go
  split
  · exact h
  · next x hx =>
      have hpass := hstep x hx
      refine h.put (fun w hw a ha => ?_) ((h.each t x hx).passes hpass)
        fun u z hz hu => (h.apart t x u z hx hz hu).passes hpass
      rw [hx] at hw
      cases hw
      exact hpass.accepted.trans ha

/-- An authenticator is looked up. -/
def looks : Stage → Bool
  | .looked _ _ => true
  | _ => false

theorem passes_of_stage (now : Int) (consumed : List Nat)
    (issued : Option Challenge) (presented : Option Nat) {stage : Stage}
    (hearly : early x.stage = true) (hstage : looks stage = false) :
    Passes x { x with now, consumed, issued, presented, stage } where
  registered := rfl
  accepted := rfl
  early _ := hearly
  looked c k hc := by
    have hc : stage = .looked c k := hc
    rw [hc] at hstage
    cases hstage

theorem Passes.refl : Passes x x := ⟨rfl, rfl, fun h => h, fun _ _ h => h⟩

theorem passes_check (hstage : x.stage = .begun) : Passes x (check cfg s x) := by
  have hnone : ∀ refused : Bool,
      looks (if refused then .raised else .allowed) = false := by
    intro refused
    cases refused <;> rfl
  exact passes_of_stage x.now x.consumed x.issued x.presented (by rw [hstage]; rfl)
    (hnone _)

theorem passes_retire : Passes x (stepRetire s x) := by
  unfold stepRetire
  split
  · next ids hstage =>
      exact passes_of_stage x.now _ x.issued x.presented (by rw [hstage]; rfl) rfl
  · exact .refl

theorem passes_claim : Passes x (stepClaim s x) := by
  unfold stepClaim
  split
  · next id hstage =>
      have hearly : early x.stage = true := by rw [hstage]; rfl
      unfold claim
      split
      · exact passes_of_stage x.now x.consumed x.issued x.presented hearly rfl
      · exact passes_of_stage x.now _ x.issued x.presented hearly rfl
  · exact .refl

/-- What a request has accepted does not change. -/
theorem Inv.step (h : Inv s) (hx : s.txns.get t = some x)
    (haccepted : y.accepted = x.accepted) (hy : Sound s y)
    (hapart : ∀ u z, s.txns.get u = some z → u ≠ t → Apart y z) :
    Inv { s with txns := s.txns.put t y } := by
  refine h.put (fun w hw a ha => ?_) hy hapart
  rw [hx] at hw
  cases hw
  exact haccepted.trans ha

theorem inv_look (h : Inv s) : Inv (s.go t (stepLook s)) := by
  unfold State.go
  split
  · exact h
  · next x hx =>
      have hsound := h.each t x hx
      have hapart := fun u z hz hu => h.apart t x u z hx hz hu
      unfold stepLook
      split
      · next c _ body hstage _ =>
          have hearly : early x.stage = true := by rw [hstage]; rfl
          unfold look
          split
          · have hpass : Passes x { x with stage := .done } :=
              passes_of_stage x.now x.consumed x.issued x.presented hearly rfl
            exact h.step hx rfl (hsound.passes hpass)
              fun u z hz hu => (hapart u z hz hu).passes hpass
          · next k hfind =>
              have hmem :=
                (List.mem_filter.mp (List.mem_of_find?_eq_some hfind)).1
              refine h.step hx rfl ⟨hsound.registered,
                fun _ => hsound.early hearly, fun d r hlooked => ?_,
                hsound.accepted⟩ fun u z hz hu =>
                  ⟨(hapart u z hz hu).registered, (hapart u z hz hu).accepted⟩
              cases hlooked
              exact ⟨k, hmem, rfl⟩
      · exact h.step hx rfl hsound hapart

theorem passes_raised : Passes x { x with stage := .raised } :=
  ⟨rfl, rfl, nofun, fun c k hc => by cases hc⟩

theorem inv_store (h : Inv s) :
    Inv { s.go t (stepStore cfg s) with credentialIds := s.credentialIds + 1 } := by
  have hwider : Inv { s with credentialIds := s.credentialIds + 1 } := by
    refine ⟨fun u z hz => ?_, h.apart, fun r hr => Nat.lt_succ_of_lt (h.old r hr),
      h.known, h.base, h.growing⟩
    have hz := h.each u z hz
    exact ⟨fun k hk => ⟨Nat.lt_succ_of_lt (hz.registered k hk).1,
      (hz.registered k hk).2⟩, hz.early, hz.looked, hz.accepted⟩
  unfold State.go
  split
  · exact hwider
  · next x hx =>
      have hsound := hwider.each t x hx
      have hapart := fun u z hz hu => hwider.apart t x u z hx hz hu
      have hraised : Inv { { s with credentialIds := s.credentialIds + 1 } with
          txns := s.txns.put t { x with stage := .raised } } :=
        hwider.step hx rfl (hsound.passes passes_raised)
          fun u z hz hu => (hapart u z hz hu).passes passes_raised
      unfold stepStore
      split
      · next result body _ _ =>
          unfold store
          split
          · exact hraised
          · split
            · exact hraised
            · split
              · exact hraised
              · refine hwider.step hx rfl ⟨fun k hk => ?_, fun hdone => ?_,
                  fun c k hlooked => ?_, hsound.accepted⟩ fun u z hz hu =>
                  ⟨fun k r hk hr => ?_, (hapart u z hz hu).accepted⟩
                · cases hk
                  exact ⟨Nat.lt_succ_self _, fun r hr =>
                    Nat.ne_of_lt (h.old r hr)⟩
                · cases hdone
                · cases hlooked
                · cases hk
                  exact (Nat.ne_of_lt ((h.each u z hz).registered r hr).1).symm
      · exact hwider.step hx rfl hsound hapart

/-! ## Accepting -/

/-- What an accepted assertion reports is 0 or more than was read. -/
theorem counter_of_verifyAssertion {lib : WebAuthnLib}
    {clientDataJson authenticatorData signature challenge cose : Bytes}
    {origins : List String} {rpId : String} {stored : Nat} {uv : Bool}
    {result : AssertionResult}
    (h : verifyAssertion lib clientDataJson authenticatorData signature challenge
      origins rpId cose stored uv = .ok result) :
    result.signCount = 0 ∨ stored < result.signCount := by
  simp only [verifyAssertion, bind_eq_ok, require_eq_ok] at h
  obtain ⟨_, _, data, _, _, _, _, _, key, _, alg, _, _, _, _, hcount, hresult⟩ := h
  cases hresult
  show data.signCount = 0 ∨ stored < data.signCount
  omega

/-- An accepted assertion is one over the authenticator that was looked up. -/
theorem examine_assertion {result : AssertionResult}
    (h : examine cfg x = some (c, .assertion k result)) :
    x.stage = .looked c k ∧
      (result.signCount = 0 ∨ k.signCount < result.signCount) := by
  unfold examine at h
  split at h
  · next body _ _ =>
      simp only [Option.some.injEq, Prod.mk.injEq, verifyRegister] at h
      obtain ⟨_, hverdict⟩ := h
      split at hverdict
      · split at hverdict <;> cases hverdict
      · cases hverdict
  · next d r purpose body hstage _ =>
      simp only [Option.some.injEq, Prod.mk.injEq, verifyAssert] at h
      obtain ⟨hd, hverdict⟩ := h
      split at hverdict
      · split at hverdict
        · next hok =>
            cases hverdict
            rw [hd] at hstage
            exact ⟨hstage, counter_of_verifyAssertion hok⟩
        · cases hverdict
      · cases hverdict
  · cases h

/-- An assertion over authenticator `k` that request `t` accepts: a 0 is over a
stored 0, the counter that was read still stands, and no other request has
accepted one that is not committed. -/
structure Undisturbed (s : State) (t : Nat) (k : Credential)
    (result : AssertionResult) : Prop where
  zero : result.signCount = 0 → k.signCount = 0
  current : ∀ r ∈ s.credentials, r.id = k.id → r.signCount = k.signCount
  alone : ∀ u y a, s.txns.get u = some y → u ≠ t → y.accepted = some a →
    a.credential.id ≠ k.id

/-- All counters accepted so far are at most the one that was read. -/
theorem Inv.le_read (h : Inv s) (hx : s.txns.get t = some x)
    (hlooked : x.stage = .looked c k) {result : AssertionResult}
    (hclear : Undisturbed s t k result) :
    ∀ e ∈ s.accepted, e.1 = k.id → e.2 ≤ k.signCount := by
  intro e he heq
  obtain ⟨r, hr, hid⟩ := (h.each t x hx).looked c k hlooked
  have hnone : x.accepted = none :=
    (h.each t x hx).early (by rw [hlooked]; rfl)
  rw [← hclear.current r hr hid]
  rcases h.base r hr e he (heq.trans hid.symm) with hle | ⟨u, y, a, hy, ha, hau⟩
  · exact hle
  · by_cases hu : u = t
    · rw [hu, hx] at hy
      cases hy
      rw [hnone] at ha
      cases ha
    · exact absurd (hau.trans hid) (hclear.alone u y a hy hu ha)

theorem inv_accept (h : Inv s) (hx : s.txns.get t = some x)
    (hlooked : x.stage = .looked c k) {result : AssertionResult}
    (hclear : Undisturbed s t k result)
    (hcount : result.signCount = 0 ∨ k.signCount < result.signCount) :
    Inv { s with
      txns := s.txns.put t (settle s c x (.assertion k result))
      accepted := (k.id, result.signCount) :: s.accepted } := by
  have hle := h.le_read hx hlooked hclear
  have hsound := h.each t x hx
  obtain ⟨row, hrow, hrid⟩ := hsound.looked c k hlooked
  have htop : ∀ e ∈ s.accepted, e.1 = k.id → e.2 ≤ result.signCount := by
    intro e he heq
    have hread := hle e he heq
    rcases hcount with hzero | hlt
    · have hkzero := hclear.zero hzero
      omega
    · omega
  have hget : ∀ u z,
      (s.txns.put t (settle s c x (.assertion k result))).get u = some z →
      (u = t ∧ z = settle s c x (.assertion k result)) ∨
        (u ≠ t ∧ s.txns.get u = some z) := by
    intro u z hz
    by_cases hu : u = t
    · rw [hu, Open.get_put] at hz
      exact Or.inl ⟨hu, (Option.some.inj hz).symm⟩
    · exact Or.inr ⟨hu, (Open.get_put_of_ne hu) ▸ hz⟩
  have hapart : ∀ u z, s.txns.get u = some z → u ≠ t →
      Apart (settle s c x (.assertion k result)) z := by
    intro u z hz hu
    refine ⟨(h.apart t x u z hx hz hu).registered, fun a b ha hb heq => ?_⟩
    cases ha
    exact hclear.alone u z b hz hu hb heq.symm
  refine ⟨fun u z hz => ?_, fun u z v w hz hw hne => ?_, h.old, fun e he => ?_,
    fun r hr e he heq => ?_, ?_⟩
  · rcases hget u z hz with ⟨_, rfl⟩ | ⟨hu, hz⟩
    · refine ⟨hsound.registered, fun hdone => ?_, fun d r hd => ?_,
        fun a ha => ?_⟩
      · cases hdone
      · cases hd
      · cases ha
        refine ⟨⟨row, hrow, hrid⟩, hclear.current, fun e he heq => ?_⟩
        rcases List.mem_cons.mp he with rfl | he
        · exact Nat.le_refl _
        · exact htop e he heq
    · have hz' := h.each u z hz
      refine ⟨hz'.registered, hz'.early, hz'.looked, fun a ha =>
        ⟨(hz'.accepted a ha).1, (hz'.accepted a ha).2.1, fun e he heq => ?_⟩⟩
      rcases List.mem_cons.mp he with rfl | he
      · exact absurd heq.symm (hclear.alone u z a hz hu ha)
      · exact (hz'.accepted a ha).2.2 e he heq
  · rcases hget u z hz with ⟨hu, hzy⟩ | ⟨hu, hz'⟩
    · rcases hget v w hw with ⟨hv, _⟩ | ⟨hv, hw'⟩
      · exact absurd (hv.trans hu.symm) hne
      · rw [hzy]
        exact hapart v w hw' hv
    · rcases hget v w hw with ⟨_, hwy⟩ | ⟨_, hw'⟩
      · rw [hwy]
        exact (hapart u z hz' hu).symm
      · exact h.apart u z v w hz' hw' hne
  · rcases List.mem_cons.mp he with rfl | he
    · exact ⟨row, hrow, hrid⟩
    · exact h.known e he
  · have hmine : e.1 = k.id → ∃ t' x' a,
        (s.txns.put t (settle s c x (.assertion k result))).get t' = some x' ∧
          x'.accepted = some a ∧ a.credential.id = r.id := fun hek =>
      ⟨t, _, ⟨k, result, s.clock⟩, Open.get_put, rfl, hek.symm.trans heq⟩
    rcases List.mem_cons.mp he with rfl | he
    · exact Or.inr (hmine rfl)
    · rcases h.base r hr e he heq with hbase | ⟨u, y, a, hy, ha, hau⟩
      · exact Or.inl hbase
      · by_cases hu : u = t
        · rw [hu, hx] at hy
          cases hy
          rw [hsound.early (by rw [hlooked]; rfl)] at ha
          cases ha
        · exact Or.inr ⟨u, y, a, (Open.get_put_of_ne hu).trans hy, ha, hau⟩
  · refine List.pairwise_cons.mpr ⟨fun e he heq hne => ?_, h.growing⟩
    have hread := hle e he heq.symm
    rcases hcount with hzero | hlt
    · have hkzero := hclear.zero hzero
      omega
    · exact Nat.lt_of_le_of_lt hread hlt

/-- A verification that accepts no assertion. -/
theorem passes_settle {verdict : Verdict} (hnone : verdict.counted = none) :
    Passes x (settle s c x verdict) := by
  cases verdict with
  | undecodable => exact ⟨rfl, rfl, nofun, fun d k hd => by cases hd⟩
  | failed fault =>
      cases fault <;> exact ⟨rfl, rfl, nofun, fun d k hd => by cases hd⟩
  | registration result => exact ⟨rfl, rfl, nofun, fun d k hd => by cases hd⟩
  | assertion k result => cases hnone

/-- The challenges do not matter. -/
theorem Inv.others (h : Inv s) {clock : Int} {challenges : List Challenge}
    {challengeIds : Nat} {presented : List Nat} :
    Inv { s with clock, challenges, challengeIds, presented } where
  each t x hx :=
    let hx := h.each t x hx
    ⟨hx.registered, hx.early, hx.looked, hx.accepted⟩
  apart := h.apart
  old := h.old
  known := h.known
  base := h.base
  growing := h.growing

/-! ## Ending a transaction -/

theorem touch_id (x : Txn) (r : Credential) : (x.touch r).id = r.id := by
  unfold Txn.touch
  split
  · rfl
  · split <;> rfl

/-- Other authenticators than the one of an accepted assertion keep their
counter. -/
theorem signCount_touch_of_ne
    (h : ∀ a, x.accepted = some a → a.credential.id ≠ r.id) :
    (x.touch r).signCount = r.signCount := by
  unfold Txn.touch
  split
  · rfl
  · next a ha => rw [if_neg (h a ha)]

/-- Whether the column is written or not, what was accepted is stored. -/
theorem signCount_touch (h : Sound s x) (ha : x.accepted = some a)
    (hr : r ∈ s.credentials) (hid : r.id = a.credential.id) :
    (x.touch r).signCount = a.result.signCount := by
  have hread := (h.accepted a ha).2.1 r hr hid
  rw [Txn.touch, ha]
  simp only [if_pos hid.symm, written]
  split
  · next hsame => rw [hread, of_decide_eq_true hsame]
  · rfl

theorem inv_commit (h : Inv s) (hx : s.txns.get t = some x) :
    Inv { s.commit x with txns := s.txns.close t } := by
  have hget : ∀ u z, (s.txns.close t).get u = some z →
      u ≠ t ∧ s.txns.get u = some z := by
    intro u z hz
    by_cases hu : u = t
    · rw [hu, Open.get_close] at hz
      cases hz
    · exact ⟨hu, Open.get_close_of_ne hu ▸ hz⟩
  have hsound := h.each t x hx
  have hmem : ∀ r ∈ s.credentials.map x.touch ++ x.registered.toList,
      (∃ k ∈ s.credentials, r = x.touch k) ∨ x.registered = some r := by
    intro r hr
    rcases List.mem_append.mp hr with hold | hnew
    · obtain ⟨k, hk, rfl⟩ := List.mem_map.mp hold
      exact Or.inl ⟨k, hk, rfl⟩
    · exact Or.inr (Option.mem_toList.mp hnew)
  have hstill : ∀ i, (∃ r ∈ s.credentials, r.id = i) →
      ∃ r ∈ s.credentials.map x.touch ++ x.registered.toList, r.id = i := by
    intro i ⟨r, hr, hi⟩
    exact ⟨x.touch r, List.mem_append_left _ (List.mem_map_of_mem hr),
      (touch_id x r).trans hi⟩
  refine ⟨fun u z hz => ?_, fun u z v w hz hw hne => ?_, fun r hr => ?_,
    fun e he => hstill e.1 (h.known e he), fun r hr e he heq => ?_, h.growing⟩
  · obtain ⟨hu, hz⟩ := hget u z hz
    have hz' := h.each u z hz
    have hxz := h.apart t x u z hx hz hu
    refine ⟨fun k hk => ⟨(hz'.registered k hk).1, fun r hr => ?_⟩, hz'.early,
      fun c k hlooked => hstill k.id (hz'.looked c k hlooked),
      fun b hb => ⟨hstill _ (hz'.accepted b hb).1, fun r hr hid => ?_,
        (hz'.accepted b hb).2.2⟩⟩
    · rcases hmem r hr with ⟨k', hk', rfl⟩ | hr
      · rw [touch_id]
        exact (hz'.registered k hk).2 k' hk'
      · exact hxz.registered r k hr hk
    · rcases hmem r hr with ⟨k, hk, rfl⟩ | hr
      · rw [touch_id] at hid
        rw [signCount_touch_of_ne fun a ha hak =>
          hxz.accepted a b ha hb (hak.trans hid)]
        exact (hz'.accepted b hb).2.1 k hk hid
      · -- nobody has asserted with a row that was not committed
        obtain ⟨k, hk, hkid⟩ := (hz'.accepted b hb).1
        exact absurd (hkid.trans hid.symm) ((hsound.registered r hr).2 k hk)
  · exact h.apart u z v w (hget u z hz).2 (hget v w hw).2 hne
  · rcases hmem r hr with ⟨k, hk, rfl⟩ | hr
    · rw [touch_id]
      exact h.old k hk
    · exact (hsound.registered r hr).1
  · rcases hmem r hr with ⟨k, hk, rfl⟩ | hr
    · rw [touch_id] at heq ⊢
      cases ha : x.accepted with
      | none =>
          rw [signCount_touch_of_ne fun a h => by rw [ha] at h; cases h]
          rcases h.base k hk e he heq with hle | ⟨u, z, b, hz, hb, hid⟩
          · exact Or.inl hle
          · have hu : u ≠ t := by
              intro hu
              rw [hu, hx] at hz
              cases hz
              rw [ha] at hb
              cases hb
            exact Or.inr ⟨u, z, b, (Open.get_close_of_ne hu).trans hz, hb, hid⟩
      | some a =>
          by_cases hak : a.credential.id = k.id
          · rw [signCount_touch hsound ha hk hak.symm]
            exact Or.inl ((hsound.accepted a ha).2.2 e he (heq.trans hak.symm))
          · have hne : ∀ b, x.accepted = some b → b.credential.id ≠ k.id := by
              intro b hb
              rw [ha] at hb
              cases hb
              exact hak
            rw [signCount_touch_of_ne hne]
            rcases h.base k hk e he heq with hle | ⟨u, z, b, hz, hb, hid⟩
            · exact Or.inl hle
            · have hu : u ≠ t := by
                intro hu
                rw [hu, hx] at hz
                cases hz
                exact hne b hb hid
              exact Or.inr ⟨u, z, b, (Open.get_close_of_ne hu).trans hz, hb, hid⟩
    · obtain ⟨k, hk, hid⟩ := h.known e he
      exact absurd (hid.trans heq) ((hsound.registered r hr).2 k hk)

/-! ## Whole runs -/

/-- Two conditions on a run: an assertion is accepted undisturbed, and a request
that accepted one is not rolled back. -/
def Clear (cfg : Config) (s : State) : Action → Prop
  | .verify t => ∀ x c k result, s.txns.get t = some x →
    examine cfg x = some (c, .assertion k result) → Undisturbed s t k result
  | .rollback t => ∀ x, s.txns.get t = some x → x.accepted = none
  | _ => True

theorem inv_verify (h : Inv s) (hclear : Clear cfg s (.verify t)) :
    Inv (s.verify cfg t) := by
  unfold State.verify
  split
  · exact h
  · next x hx =>
      split
      · exact h
      · next c verdict hexamine =>
          cases hcounted : verdict.counted with
          | none =>
              have hpass : Passes x (settle s c x verdict) :=
                passes_settle hcounted
              exact (h.step hx hpass.accepted ((h.each t x hx).passes hpass)
                fun u z hz hu => (h.apart t x u z hx hz hu).passes hpass).others
          | some e =>
              cases verdict with
              | undecodable => cases hcounted
              | failed fault => cases hcounted
              | registration result => cases hcounted
              | assertion k result =>
                  cases hcounted
                  obtain ⟨hlooked, hcount⟩ := examine_assertion hexamine
                  exact (inv_accept h hx hlooked
                    (hclear x c k result hx hexamine) hcount).others

theorem inv_rollback (h : Inv s)
    (hnone : ∀ x, s.txns.get t = some x → x.accepted = none) :
    Inv { s with txns := s.txns.close t } := by
  have hget : ∀ u z, (s.txns.close t).get u = some z →
      u ≠ t ∧ s.txns.get u = some z := by
    intro u z hz
    by_cases hu : u = t
    · rw [hu, Open.get_close] at hz
      cases hz
    · exact ⟨hu, Open.get_close_of_ne hu ▸ hz⟩
  refine ⟨fun u z hz => ?_, fun u z v w hz hw hne => ?_, h.old, h.known,
    fun r hr e he heq => ?_, h.growing⟩
  · have hz := h.each u z (hget u z hz).2
    exact ⟨hz.registered, hz.early, hz.looked, hz.accepted⟩
  · exact h.apart u z v w (hget u z hz).2 (hget v w hw).2 hne
  · rcases h.base r hr e he heq with hle | ⟨u, z, a, hz, ha, hid⟩
    · exact Or.inl hle
    · have hu : u ≠ t := by
        intro hu
        rw [hu] at hz
        rw [hnone z hz] at ha
        cases ha
      exact Or.inr ⟨u, z, a, (Open.get_close_of_ne hu).trans hz, ha, hid⟩

theorem inv_arrive (h : Inv s) {operatorId : String} {request : Request}
    (hfree : s.txns.get t = none) :
    Inv { s with txns := s.txns.put t { request, operatorId } } := by
  refine h.put (fun x hx => ?_)
    ⟨fun k hk => ?_, fun _ => rfl, fun c k hlooked => ?_, fun a ha => ?_⟩
    fun u z hz hu => ⟨fun k r hk => ?_, fun a b ha => ?_⟩
  · rw [hfree] at hx
    cases hx
  · cases hk
  · cases hlooked
  · cases ha
  · cases hk
  · cases ha

/-- A revocation changes neither the number nor the counter of a row. -/
theorem inv_revoke (h : Inv s) {revoke : Credential → Credential}
    (hid : ∀ r, (revoke r).id = r.id)
    (hcount : ∀ r, (revoke r).signCount = r.signCount) :
    Inv { s with credentials := s.credentials.map revoke } := by
  have hmem : ∀ r ∈ s.credentials.map revoke, ∃ k ∈ s.credentials,
      k.id = r.id ∧ k.signCount = r.signCount := by
    intro r hr
    obtain ⟨k, hk, rfl⟩ := List.mem_map.mp hr
    exact ⟨k, hk, (hid k).symm, (hcount k).symm⟩
  have hstill : ∀ i, (∃ r ∈ s.credentials, r.id = i) →
      ∃ r ∈ s.credentials.map revoke, r.id = i := by
    intro i ⟨r, hr, hi⟩
    exact ⟨revoke r, List.mem_map_of_mem hr, (hid r).trans hi⟩
  refine ⟨fun t x hx => ?_, h.apart, fun r hr => ?_,
    fun e he => hstill e.1 (h.known e he), fun r hr e he heq => ?_, h.growing⟩
  · have hx' := h.each t x hx
    refine ⟨fun k hk => ⟨(hx'.registered k hk).1, fun r hr => ?_⟩, hx'.early,
      fun c k hlooked => hstill k.id (hx'.looked c k hlooked),
      fun a ha => ⟨hstill _ (hx'.accepted a ha).1, fun r hr hra => ?_,
        (hx'.accepted a ha).2.2⟩⟩
    · obtain ⟨k', hk', hkid, _⟩ := hmem r hr
      rw [← hkid]
      exact (hx'.registered k hk).2 k' hk'
    · obtain ⟨k, hk, hkid, hkcount⟩ := hmem r hr
      rw [← hkcount]
      exact (hx'.accepted a ha).2.1 k hk (hkid.trans hra)
  · obtain ⟨k, hk, hkid, _⟩ := hmem r hr
    rw [← hkid]
    exact h.old k hk
  · obtain ⟨k, hk, hkid, hkcount⟩ := hmem r hr
    rw [← hkid, ← hkcount]
    exact h.base k hk e he (heq.trans hkid.symm)

theorem inv_next {a : Action} (h : Inv s) (henabled : enabled cfg s a = true)
    (hclear : Clear cfg s a) : Inv (next cfg s a) := by
  cases a with
  | tick n => exact h.others
  | arrive t operatorId request =>
      have hfree := (Bool.and_eq_true_iff.mp henabled).1
      exact inv_arrive h (Option.isNone_iff_eq_none.mp hfree)
  | check t =>
      obtain ⟨x, hx, hstage⟩ := stands_eq_true.mp henabled
      rw [Bool.and_eq_true, decide_eq_true_iff] at hstage
      refine h.go_of_passes fun y hy => passes_check ?_
      rw [hx] at hy
      cases hy
      exact hstage.1
  | scan t =>
      obtain ⟨x, hx, hstage⟩ := stands_eq_true.mp henabled
      refine h.go_of_passes fun y hy => ?_
      rw [hx] at hy
      cases hy
      exact passes_of_stage _ x.consumed x.issued x.presented
        (by rw [of_decide_eq_true hstage]; rfl) rfl
  | retire t => exact h.go_of_passes fun _ _ => passes_retire
  | issue t raw =>
      rw [enabled, Bool.and_eq_true] at henabled
      obtain ⟨x, hx, hstage⟩ := stands_eq_true.mp henabled.2
      have hgo : Inv (s.go t (issue cfg s raw)) := h.go_of_passes fun y hy => by
        rw [hx] at hy
        cases hy
        exact passes_of_stage x.now x.consumed _ x.presented
          (by rw [of_decide_eq_true hstage]; rfl) rfl
      exact hgo.others
  | select t pick =>
      obtain ⟨x, hx, hmay⟩ := stands_eq_true.mp henabled
      rw [Txn.maySelect, Bool.and_eq_true, Bool.and_eq_true,
        decide_eq_true_iff] at hmay
      refine h.go_of_passes fun y hy => ?_
      rw [hx] at hy
      cases hy
      refine passes_of_stage _ x.consumed x.issued x.presented
        (by rw [hmay.1.1]; rfl) ?_
      cases pick <;> rfl
  | claim t => exact h.go_of_passes fun _ _ => passes_claim
  | look t => exact inv_look h
  | verify t => exact inv_verify h hclear
  | store t => exact inv_store h
  | commit t =>
      obtain ⟨x, hx, _⟩ := stands_eq_true.mp henabled
      have hinv := inv_commit h hx
      rw [next, hx]
      exact hinv
  | rollback t => exact inv_rollback h hclear
  | purge ids => exact h.others
  | revoke id =>
      refine inv_revoke h (fun r => ?_) fun r => ?_
      · split <;> rfl
      · split <;> rfl

/-- In every run whose actions are clear, the counters that are accepted of an
authenticator grow once one is not 0. -/
theorem counters_grow_while {clock : Int} {acts : List Action}
    (hruns : (system cfg).runs { clock } acts = true)
    (hclear : (system cfg).Each (Clear cfg) { clock } acts) :
    Growing ((system cfg).run { clock } acts).accepted :=
  (System.invariant_run (I := Inv)
    (fun _ _ h henabled hclear => inv_next h henabled hclear)
    (inv_initial clock) hruns hclear).growing

/-! ## Counters that grow, and a reset one -/

/-- An assertion of the authenticator whose key is `sampleKey`: the challenge it
is over, the counter it reports, the digest of its client data, and its
signature. -/
structure SampleAssertion where
  challenge : UInt8
  count : UInt8
  digest : Bytes
  signature : Bytes

def fifthAssertion : SampleAssertion where
  challenge := 2
  count := 5
  digest :=
    [85, 59, 163, 25, 236, 24, 83, 152, 177, 134, 85, 98, 188, 108, 218, 253,
     46, 53, 173, 194, 174, 109, 159, 179, 192, 193, 71, 254, 70, 64, 65, 84]
  signature :=
    [48, 70, 2, 33, 0, 211, 103, 134, 186, 82, 197, 108, 82, 215, 220, 73, 226,
     161, 30, 55, 60, 247, 191, 18, 24, 100, 167, 48, 210, 122, 226, 123, 191,
     123, 84, 241, 44, 2, 33, 0, 179, 47, 247, 52, 38, 172, 132, 130, 35, 137,
     197, 31, 228, 73, 30, 133, 104, 123, 139, 53, 45, 188, 254, 246, 90, 10,
     39, 253, 23, 163, 170, 40]

def resetAssertion : SampleAssertion where
  challenge := 3
  count := 0
  digest :=
    [247, 211, 17, 244, 90, 175, 101, 83, 50, 77, 5, 29, 155, 17, 87, 163, 207,
     214, 96, 178, 132, 179, 127, 245, 52, 118, 122, 159, 173, 217, 125, 49]
  signature :=
    [48, 68, 2, 32, 38, 174, 44, 81, 37, 11, 132, 182, 101, 121, 188, 126, 221,
     249, 219, 132, 92, 216, 29, 219, 238, 46, 232, 178, 123, 186, 232, 69, 1,
     35, 60, 240, 2, 32, 106, 193, 66, 217, 114, 73, 33, 19, 156, 147, 253,
     145, 15, 107, 170, 50, 31, 141, 174, 173, 165, 84, 19, 236, 220, 149, 153,
     98, 21, 150, 93, 70]

def earlierAssertion : SampleAssertion where
  challenge := 4
  count := 3
  digest :=
    [214, 72, 44, 106, 69, 181, 98, 66, 214, 169, 107, 219, 74, 104, 35, 246,
     149, 176, 79, 153, 238, 255, 38, 43, 166, 100, 204, 205, 215, 129, 93, 69]
  signature :=
    [48, 69, 2, 33, 0, 128, 250, 225, 50, 218, 178, 115, 225, 141, 174, 245,
     105, 208, 105, 138, 31, 7, 136, 250, 50, 146, 63, 133, 242, 242, 247, 128,
     243, 211, 60, 107, 145, 2, 32, 105, 198, 51, 102, 226, 194, 44, 109, 68,
     206, 191, 195, 103, 252, 163, 104, 64, 52, 79, 16, 35, 172, 15, 24, 184,
     181, 102, 150, 12, 188, 183, 75]

def greaterAssertion : SampleAssertion where
  challenge := 5
  count := 9
  digest :=
    [122, 75, 134, 79, 53, 218, 12, 127, 28, 186, 10, 199, 138, 138, 158, 88,
     241, 27, 245, 99, 217, 30, 49, 11, 56, 74, 53, 224, 37, 155, 137, 243]
  signature :=
    [48, 69, 2, 33, 0, 149, 105, 58, 239, 199, 44, 103, 171, 82, 61, 110, 236,
     164, 14, 229, 91, 222, 106, 50, 249, 218, 192, 127, 225, 155, 201, 116,
     171, 161, 105, 239, 139, 2, 32, 120, 142, 6, 84, 239, 132, 15, 239, 49,
     156, 68, 196, 251, 194, 114, 209, 162, 128, 61, 238, 210, 9, 218, 158, 26,
     82, 60, 101, 165, 32, 112, 51]

def clonedAssertion : SampleAssertion where
  challenge := 6
  count := 7
  digest :=
    [195, 153, 139, 187, 38, 74, 184, 25, 142, 14, 252, 28, 106, 212, 147, 7,
     8, 177, 207, 225, 153, 93, 113, 70, 106, 114, 228, 58, 231, 12, 8, 97]
  signature :=
    [48, 69, 2, 32, 78, 166, 71, 35, 65, 129, 76, 151, 30, 160, 146, 69, 159,
     24, 65, 119, 167, 11, 221, 120, 229, 153, 201, 102, 121, 132, 64, 74, 1,
     238, 94, 12, 2, 33, 0, 250, 145, 65, 146, 79, 35, 210, 251, 171, 233, 85,
     166, 156, 138, 69, 242, 59, 236, 192, 162, 153, 218, 66, 148, 41, 117, 87,
     165, 35, 184, 35, 169]

def SampleAssertion.clientData (e : SampleAssertion) : Bytes :=
  ChallengeUses.clientData "webauthn.get" (sampleChallenge e.challenge)

/-- Under flags for presence and verification. -/
def SampleAssertion.authenticatorData (e : SampleAssertion) : Bytes :=
  sampleRpIdHash ++ [0x05, 0, 0, 0, e.count]

def SampleAssertion.body (e : SampleAssertion) : AssertionVerification where
  credentialId := b64urlEncode sampleCredentialId
  clientDataJson := b64urlEncode e.clientData
  authenticatorData := b64urlEncode e.authenticatorData
  signature := b64urlEncode e.signature

def sampleAssertions : List SampleAssertion :=
  [fifthAssertion, resetAssertion, earlierAssertion, greaterAssertion,
    clonedAssertion]

/-- The deployment where these are the digests and signatures. -/
def countingConfig : Config :=
  sampleConfig (sampleAssertions.map fun e => (e.clientData, e.digest))
    (sampleAssertions.map fun e => (e.signature, e.authenticatorData ++ e.digest))

def SampleAssertion.result (e : SampleAssertion) : AssertionResult where
  signCount := e.count.toNat
  userVerified := true
  backupState := false

/-- The assertion verifies over the counter `stored`. -/
def Accepts (e : SampleAssertion) (stored : Nat) : Prop :=
  e.signature ≠ [] ∧
    (verifyAssertion countingConfig.lib e.clientData e.authenticatorData
      e.signature (sampleChallenge e.challenge) ["https://rmm.example"]
      "rmm.example" sampleCoseKey stored true).toOption = some e.result

instance (e : SampleAssertion) (stored : Nat) : Decidable (Accepts e stored) :=
  inferInstanceAs (Decidable (_ ∧ _))

/-- The assertion is refused for its counter. -/
def Refuses (e : SampleAssertion) (stored : Nat) : Prop :=
  e.signature ≠ [] ∧
    verifyAssertion countingConfig.lib e.clientData e.authenticatorData
      e.signature (sampleChallenge e.challenge) ["https://rmm.example"]
      "rmm.example" sampleCoseKey stored true =
        .error (.refused .signCountRegressed)

instance (e : SampleAssertion) (stored : Nat) : Decidable (Refuses e stored) :=
  inferInstanceAs (Decidable (_ ∧ _))

theorem accepts_sample : (Accepts fifthAssertion 0 ∧ Accepts resetAssertion 5 ∧
    Accepts earlierAssertion 0 ∧ Accepts greaterAssertion 5) ∧
      Refuses clonedAssertion 9 := by decide +kernel

theorem verifyAssert_of_ok {body : AssertionVerification}
    {clientDataJson authenticatorData signature : Bytes}
    {result : AssertionResult}
    (hclient : decodeField body.clientDataJson .malformedClientData =
      .ok clientDataJson)
    (hdata : decodeField body.authenticatorData .malformedAuthenticatorData =
      .ok authenticatorData)
    (hsignature : decodeField body.signature .malformedSignature = .ok signature)
    (hok : verifyAssertion cfg.lib clientDataJson authenticatorData signature
      c.challenge cfg.origins c.rpId k.publicKeyCose k.signCount
      cfg.requireUserVerification = .ok result) :
    verifyAssert cfg c k body = .assertion k result := by
  unfold verifyAssert
  rw [hclient, hdata, hsignature]
  simp only [hok]

theorem verifyAssert_of_refused {body : AssertionVerification}
    {clientDataJson authenticatorData signature : Bytes} {fault : Fault}
    (hclient : decodeField body.clientDataJson .malformedClientData =
      .ok clientDataJson)
    (hdata : decodeField body.authenticatorData .malformedAuthenticatorData =
      .ok authenticatorData)
    (hsignature : decodeField body.signature .malformedSignature = .ok signature)
    (hfault : verifyAssertion cfg.lib clientDataJson authenticatorData signature
      c.challenge cfg.origins c.rpId k.publicKeyCose k.signCount
      cfg.requireUserVerification = .error fault) :
    verifyAssert cfg c k body = .failed fault := by
  unfold verifyAssert
  rw [hclient, hdata, hsignature]
  simp only [hfault]

/-- The row of the authenticator, with its counter. -/
def sampleCredential (signCount : Nat) (lastUsedAt : Option Int) : Credential where
  id := 0
  operatorId := "op-1"
  credentialId := b64urlEncode sampleCredentialId
  publicKeyCose := sampleCoseKey
  algorithm := -7
  signCount := signCount
  aaguid := List.replicate 16 0
  name := "key"
  transports := none
  attestationFormat := "none"
  backupEligible := false
  backupState := false
  lastUsedAt := lastUsedAt

/-- An assertion over challenge `id` that stands before its verification. -/
def lookedTxn (id : Nat) (k : Credential) (e : SampleAssertion) : Txn where
  request := .assertion .authentication e.body
  operatorId := "op-1"
  stage := .looked (challengeRow id .authentication e.challenge) k
  consumed := [id]

/-- The state after the verification of `lookedTxn` accepted. -/
def afterAccept (s : State) (t id : Nat) (k : Credential) (e : SampleAssertion) :
    State :=
  { s with
    txns := s.txns.put t
      { lookedTxn id k e with
        presented := some id
        accepted := some ⟨k, e.result, s.clock⟩
        stage := .done }
    presented := id :: s.presented
    accepted := (k.id, e.count.toNat) :: s.accepted }

theorem authenticatorData_ne_nil {e : SampleAssertion} :
    e.authenticatorData ≠ [] :=
  List.append_ne_nil_of_left_ne_nil (List.cons_ne_nil _ _) _

theorem examine_sample (id : Nat) {e : SampleAssertion} {stored : Nat}
    (used : Option Int) (he : Accepts e stored) :
    examine countingConfig (lookedTxn id (sampleCredential stored used) e) =
      some (challengeRow id .authentication e.challenge,
        .assertion (sampleCredential stored used) e.result) := by
  have hverify : verifyAssert countingConfig
      (challengeRow id .authentication e.challenge)
      (sampleCredential stored used) e.body =
        .assertion (sampleCredential stored used) e.result :=
    verifyAssert_of_ok (decodeField_b64urlEncode clientData_ne_nil)
      (decodeField_b64urlEncode authenticatorData_ne_nil)
      (decodeField_b64urlEncode he.1) (eq_ok_of_toOption he.2)
  rw [← hverify]
  rfl

theorem examine_refused (id : Nat) {e : SampleAssertion} {stored : Nat}
    (used : Option Int) (he : Refuses e stored) :
    examine countingConfig (lookedTxn id (sampleCredential stored used) e) =
      some (challengeRow id .authentication e.challenge,
        .failed (.refused .signCountRegressed)) := by
  have hverify : verifyAssert countingConfig
      (challengeRow id .authentication e.challenge)
      (sampleCredential stored used) e.body =
        .failed (.refused .signCountRegressed) :=
    verifyAssert_of_refused (decodeField_b64urlEncode clientData_ne_nil)
      (decodeField_b64urlEncode authenticatorData_ne_nil)
      (decodeField_b64urlEncode he.1) he.2
  rw [← hverify]
  rfl

theorem plays_accept (id : Nat) {e : SampleAssertion} {stored : Nat}
    (used : Option Int) (he : Accepts e stored)
    (hx : s.txns.get t =
      some (lookedTxn id (sampleCredential stored used) e)) :
    Plays countingConfig s [.verify t]
      (afterAccept s t id (sampleCredential stored used) e) := by
  have hexamine := examine_sample id used he
  refine ⟨System.runs_cons.mpr ⟨?_, rfl⟩, ?_⟩
  · show enabled countingConfig s (.verify t) = true
    rw [enabled]
    exact stands_eq_true.mpr ⟨_, hx, congrArg Option.isSome hexamine⟩
  · show next countingConfig s (.verify t) = _
    rw [next, verify_eq hx hexamine]
    rfl

/-- The state after the verification of `lookedTxn` refused. -/
def afterRefusal (s : State) (t id : Nat) (k : Credential) (e : SampleAssertion) :
    State :=
  { s with
    txns := s.txns.put t
      { lookedTxn id k e with presented := some id, stage := .done }
    presented := id :: s.presented }

theorem plays_refuse (id : Nat) {e : SampleAssertion} {stored : Nat}
    (used : Option Int) (he : Refuses e stored)
    (hx : s.txns.get t =
      some (lookedTxn id (sampleCredential stored used) e)) :
    Plays countingConfig s [.verify t]
      (afterRefusal s t id (sampleCredential stored used) e) := by
  have hexamine := examine_refused id used he
  refine ⟨System.runs_cons.mpr ⟨?_, rfl⟩, ?_⟩
  · show enabled countingConfig s (.verify t) = true
    rw [enabled]
    exact stands_eq_true.mpr ⟨_, hx, congrArg Option.isSome hexamine⟩
  · show next countingConfig s (.verify t) = _
    rw [next, verify_eq hx hexamine]
    rfl

/-- The only request under way may accept, over the row as it stands. -/
theorem clear_accept (id : Nat) {e : SampleAssertion} {stored : Nat}
    (used : Option Int) (he : Accepts e stored) (hcount : e.count.toNat ≠ 0)
    (hx : s.txns.get t =
      some (lookedTxn id (sampleCredential stored used) e))
    (hrows : s.credentials = [sampleCredential stored used])
    (halone : ∀ u y, s.txns.get u = some y → u = t) :
    Clear countingConfig s (.verify t) := by
  intro x c k result hget hexamine
  rw [hx] at hget
  cases hget
  cases (examine_sample id used he).symm.trans hexamine
  refine ⟨fun hzero => absurd hzero hcount, fun r hr _ => ?_,
    fun u y a hy hu ha => absurd (halone u y hy) hu⟩
  rw [hrows] at hr
  cases List.mem_singleton.mp hr
  rfl

theorem clear_refuse (id : Nat) {e : SampleAssertion} {stored : Nat}
    (used : Option Int) (he : Refuses e stored)
    (hx : s.txns.get t =
      some (lookedTxn id (sampleCredential stored used) e)) :
    Clear countingConfig s (.verify t) := by
  intro x c k result hget hexamine
  rw [hx] at hget
  cases hget
  cases (examine_refused id used he).symm.trans hexamine

/-- An assertion up to its verification, over challenge `id`. -/
def assert (t id : Nat) (e : SampleAssertion) : List Action :=
  [.arrive t "op-1" (.assertion .authentication e.body), .select t (some id),
    .claim t, .look t]

/-- The registration, committed, and a login after it. -/
def loginFirst : List Action :=
  [.store 1, .commit 1] ++ start 2 .authentication 2 ++ assert 3 1 fifthAssertion

def loginReset : List Action :=
  [.commit 3] ++ start 4 .authentication 3 ++ assert 5 2 resetAssertion

def loginEarlier : List Action :=
  [.commit 5] ++ start 6 .authentication 4 ++ assert 7 3 earlierAssertion

/-- The counters 5, 0 and 3, one login after the other. -/
def resetRun : List Action :=
  registerOnce ++ [.verify 1] ++ loginFirst ++ [.verify 3] ++ loginReset ++
    [.verify 5] ++ loginEarlier ++ [.verify 7]

theorem registers_counting : Registers countingConfig.lib 1 := by decide +kernel

/-- The counters of the three logins are accepted. -/
theorem resetRun_accepts : ∃ s, Plays countingConfig {} resetRun s ∧
    s.accepted = [(0, 3), (0, 0), (0, 5)] := by
  have h1 : Plays countingConfig {} registerOnce _ :=
    plays_of_runs _ (by decide +kernel)
  have h2 := h1.append (plays_verify (t := 1) 0 registers_counting rfl)
  have h3 := h2.append (plays_of_runs loginFirst (by decide +kernel))
  have h4 := h3.append (plays_accept (t := 3) 1 none
    accepts_sample.1.1 rfl)
  have h5 := h4.append (plays_of_runs loginReset (by decide +kernel))
  have h6 := h5.append (plays_accept (t := 5) 2 (some 0)
    accepts_sample.1.2.1 rfl)
  have h7 := h6.append (plays_of_runs loginEarlier (by decide +kernel))
  have h8 := h7.append (plays_accept (t := 7) 3 (some 0)
    accepts_sample.1.2.2.1 rfl)
  exact ⟨_, h8, rfl⟩

/-- A counter that was accepted comes again, by way of a 0. -/
theorem counters_go_back : ∃ s, Plays countingConfig {} resetRun s ∧
    ¬ Growing s.accepted := by
  obtain ⟨s, hplays, haccepted⟩ := resetRun_accepts
  refine ⟨s, hplays, ?_⟩
  rw [haccepted]
  unfold Growing
  decide

def loginGreater : List Action :=
  [.commit 3] ++ start 4 .authentication 5 ++ assert 5 2 greaterAssertion

def loginCloned : List Action :=
  [.commit 5] ++ start 6 .authentication 6 ++ assert 7 3 clonedAssertion

/-- The counters 5, 9 and, from a copy of the authenticator, 7. -/
def growingRun : List Action :=
  registerOnce ++ [.verify 1] ++ loginFirst ++ [.verify 3] ++ loginGreater ++
    [.verify 5] ++ loginCloned ++ [.verify 7]

theorem counters_grow_while_sample : ∃ s, Plays countingConfig {} growingRun s ∧
    s.accepted = [(0, 9), (0, 5)] ∧ s.presented = [3, 2, 1, 0] ∧
      Growing s.accepted := by
  have h1 : Plays countingConfig {} registerOnce _ :=
    plays_of_runs _ (by decide +kernel)
  have h2 := h1.append (plays_verify (t := 1) 0 registers_counting rfl)
  have h3 := h2.append (plays_of_runs loginFirst (by decide +kernel))
  have h4 := h3.append (plays_accept (t := 3) 1 none accepts_sample.1.1 rfl)
  have h5 := h4.append (plays_of_runs loginGreater (by decide +kernel))
  have h6 := h5.append (plays_accept (t := 5) 2 (some 0)
    accepts_sample.1.2.2.2 rfl)
  have h7 := h6.append (plays_of_runs loginCloned (by decide +kernel))
  have h8 := h7.append (plays_refuse (t := 7) 3 (some 0) accepts_sample.2 rfl)
  have hregister : Clear countingConfig
      ((system countingConfig).run {} registerOnce) (.verify 1) := by
    intro x c k result hx hexamine
    have hstage := (examine_assertion hexamine).1
    cases hx
    cases hstage
  have hfirst : Clear countingConfig ((system countingConfig).run {}
      (registerOnce ++ [.verify 1] ++ loginFirst)) (.verify 3) := by
    rw [h3.2]
    refine clear_accept 1 none accepts_sample.1.1 (by decide) rfl rfl ?_
    intro u y hy
    cases List.mem_singleton.mp (Open.has_of_get hy)
    rfl
  have hgreater : Clear countingConfig ((system countingConfig).run {}
      (registerOnce ++ [.verify 1] ++ loginFirst ++ [.verify 3] ++ loginGreater))
      (.verify 5) := by
    rw [h5.2]
    refine clear_accept 2 (some 0) accepts_sample.1.2.2.2 (by decide) rfl rfl ?_
    intro u y hy
    cases List.mem_singleton.mp (Open.has_of_get hy)
    rfl
  have hcloned : Clear countingConfig ((system countingConfig).run {}
      (registerOnce ++ [.verify 1] ++ loginFirst ++ [.verify 3] ++ loginGreater ++
        [.verify 5] ++ loginCloned)) (.verify 7) := by
    rw [h7.2]
    exact clear_refuse 3 (some 0) accepts_sample.2 rfl
  have hlogin : ∀ {s t u id n e}, (system countingConfig).Each
      (Clear countingConfig) s
      ([.commit t] ++ start u .authentication n ++ assert (u + 1) id e) :=
    ⟨trivial, trivial, trivial, trivial, trivial, trivial, trivial, trivial,
      trivial, trivial, trivial, trivial⟩
  have hclear : (system countingConfig).Each (Clear countingConfig) {}
      growingRun := by
    refine System.each_append.mpr ⟨System.each_append.mpr
      ⟨System.each_append.mpr ⟨System.each_append.mpr ⟨System.each_append.mpr
        ⟨System.each_append.mpr ⟨System.each_append.mpr
          ⟨?_, hregister, trivial⟩, ?_⟩, hfirst, trivial⟩, ?_⟩, hgreater,
            trivial⟩, ?_⟩, hcloned, trivial⟩
    · exact ⟨trivial, trivial, trivial, trivial, trivial, trivial, trivial,
        trivial, trivial, trivial⟩
    · exact ⟨trivial, hlogin⟩
    · exact hlogin
    · exact hlogin
  have hgrowing := @counters_grow_while countingConfig 0 growingRun h8.1 hclear
  refine ⟨_, h8, rfl, rfl, ?_⟩
  rw [← h8.2]
  exact hgrowing

end NodeLink.Proofs.SignatureCounters
