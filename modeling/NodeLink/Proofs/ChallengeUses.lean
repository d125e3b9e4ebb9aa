import NodeLink.Lib.PyLoads
import NodeLink.Proofs.Base64Url
import NodeLink.Server.MfaCeremonies

/-!
# WebAuthn challenges are spent once

A challenge is claimed with a conditional update, and the claim is as durable as
the transaction that made it. Every refusal by a verification is committed. A
registration that verified may still be refused, by the limit or by an
authenticator that is known already, and then it is rolled back: the challenge
is to be had again. Two starts side by side retire the same challenges and
insert one each.

Runs without either verify every challenge once and never leave two that may be
spent for one operator and purpose.
-/

namespace NodeLink.Proofs.ChallengeUses

open Lib Server.WebAuthn Server.MfaCeremonies Base64Url

variable {cfg : Config} {s s' : State} {x y z : Txn} {t u v id : Nat}
  {c d : Challenge}

/-! ## Stages -/

/-- The challenge a request has claimed and not yet verified with. -/
def challengeOf : Stage → Option Challenge
  | .claimed c => some c
  | .looked c _ => some c
  | _ => none

/-- Nothing is verified yet. -/
def early : Stage → Bool
  | .verified _ => false
  | .done => false
  | .raised => false
  | _ => true

theorem challengeOf_examine {verdict : Verdict}
    (h : examine cfg x = some (c, verdict)) : challengeOf x.stage = some c := by
  unfold examine at h
  split at h
  · next hstage _ =>
      cases h
      rw [hstage, challengeOf]
  · next hstage _ =>
      cases h
      rw [hstage, challengeOf]
  · cases h

theorem early_of_challengeOf {stage : Stage} (h : challengeOf stage = some c) :
    early stage = true := by
  cases stage with
  | claimed _ => rfl
  | looked _ _ => rfl
  | begun => cases h
  | allowed => cases h
  | retiring _ => cases h
  | retired => cases h
  | selected _ => cases h
  | verified _ => cases h
  | done => cases h
  | raised => cases h

/-! ## The invariant -/

/-- What a request under way may rely on. -/
structure Sound (s : State) (x : Txn) : Prop where
  rows : ∀ id ∈ x.consumed, ∃ c ∈ s.challenges, c.id = id
  claimed : ∀ c, challengeOf x.stage = some c →
    c.id ∈ x.consumed ∧ c.id ∉ s.presented
  early : early x.stage = true → x.presented = none
  presented : ∀ id, x.presented = some id → id ∈ x.consumed
  issued : ∀ c, x.issued = some c → c.id < s.challengeIds ∧ c.id ∉ s.presented ∧
    ∀ d ∈ s.challenges, d.id ≠ c.id

/-- Two requests hold different challenges and insert different ones. -/
structure Apart (x y : Txn) : Prop where
  consumed : ∀ id ∈ x.consumed, id ∉ y.consumed
  issued : ∀ c d, x.issued = some c → y.issued = some d → c.id ≠ d.id

theorem Apart.symm (h : Apart x y) : Apart y x where
  consumed id hy hx := h.consumed id hx hy
  issued c d hc hd := (h.issued d c hd hc).symm

/-- The challenge may be spent. -/
def Spendable (s : State) (c : Challenge) : Prop :=
  c ∈ s.challenges ∧ c.consumedAt = none ∧ s.clock < c.expiresAt

/-- One challenge at most may be spent for an operator and a purpose. -/
def Alone (s : State) : Prop :=
  ∀ c d, Spendable s c → Spendable s d → c.operatorId = d.operatorId →
    c.purpose = d.purpose → c = d

structure Inv (s : State) : Prop where
  each : ∀ t x, s.txns.get t = some x → Sound s x
  apart : ∀ t x u y, s.txns.get t = some x → s.txns.get u = some y → u ≠ t →
    Apart x y
  old : ∀ c ∈ s.challenges, c.id < s.challengeIds
  ids : (s.challenges.map (·.id)).Nodup
  /-- A challenge that was verified with is consumed, or held by the request
  that did. -/
  spent : ∀ c ∈ s.challenges, c.id ∈ s.presented → c.consumedAt ≠ none ∨
    ∃ t x, s.txns.get t = some x ∧ x.presented = some c.id
  once : s.presented.Nodup
  seen : ∀ id ∈ s.presented, id < s.challengeIds
  alone : Alone s

theorem inv_initial (clock : Int) : Inv { clock } where
  each t x h := by cases h
  apart t x u y h := by cases h
  old c hc := by cases hc
  ids := List.nodup_nil
  spent c hc := by cases hc
  once := List.nodup_nil
  seen id hid := by cases hid
  alone c d hc := by cases hc.1

/-! ## One request goes on -/

/-- The request is replaced by what it has become. -/
theorem Inv.put (h : Inv s) (hx : ∀ x, s.txns.get t = some x →
      ∀ id, x.presented = some id → y.presented = some id)
    (hy : Sound s y)
    (hapart : ∀ u z, s.txns.get u = some z → u ≠ t → Apart y z) :
    Inv { s with txns := s.txns.put t y } where
  each u z hz := by
    by_cases hu : u = t
    · rw [hu, Open.get_put] at hz
      cases hz
      exact ⟨hy.rows, hy.claimed, hy.early, hy.presented, hy.issued⟩
    · rw [Open.get_put_of_ne hu] at hz
      have hz := h.each u z hz
      exact ⟨hz.rows, hz.claimed, hz.early, hz.presented, hz.issued⟩
  apart u z v w hz hw hne := by
    by_cases hu : u = t
    · have hv : v ≠ t := fun hv => hne (hv.trans hu.symm)
      rw [hu, Open.get_put] at hz
      rw [Open.get_put_of_ne hv] at hw
      cases hz
      exact hapart v w hw hv
    · rw [Open.get_put_of_ne hu] at hz
      by_cases hv : v = t
      · rw [hv, Open.get_put] at hw
        cases hw
        exact (hapart u z hz hu).symm
      · rw [Open.get_put_of_ne hv] at hw
        exact h.apart u z v w hz hw hne
  old := h.old
  ids := h.ids
  spent c hc hp := by
    rcases h.spent c hc hp with hconsumed | ⟨u, z, hz, hpz⟩
    · exact Or.inl hconsumed
    · by_cases hu : u = t
      · rw [hu] at hz
        exact Or.inr ⟨t, y, Open.get_put, hx z hz c.id hpz⟩
      · exact Or.inr ⟨u, z, (Open.get_put_of_ne hu).trans hz, hpz⟩
  once := h.once
  seen := h.seen
  alone := h.alone

/-- A step that reads: it writes no challenge, and claims none. -/
structure Reads (x y : Txn) : Prop where
  consumed : y.consumed = x.consumed
  issued : y.issued = x.issued
  presented : y.presented = x.presented
  challenge : ∀ c, challengeOf y.stage = some c → challengeOf x.stage = some c
  early : early y.stage = true → early x.stage = true

theorem Sound.reads (h : Sound s x) (hread : Reads x y) : Sound s y where
  rows id hid := h.rows id (hread.consumed ▸ hid)
  claimed c hc := by
    rw [hread.consumed]
    exact h.claimed c (hread.challenge c hc)
  early hearly := hread.presented.trans (h.early (hread.early hearly))
  presented id hid := by
    rw [hread.consumed]
    exact h.presented id (hread.presented ▸ hid)
  issued c hc := h.issued c (hread.issued ▸ hc)

theorem Apart.reads (h : Apart x z) (hread : Reads x y) : Apart y z where
  consumed id hid := h.consumed id (hread.consumed ▸ hid)
  issued c d hc hd := h.issued c d (hread.issued ▸ hc) hd

theorem Inv.go_of_reads (h : Inv s) {step : Txn → Txn}
    (hstep : ∀ x, s.txns.get t = some x → Reads x (step x)) :
    Inv (s.go t step) := by
  unfold State.go
  split
  · exact h
  · next x hx =>
      have hread := hstep x hx
      refine h.put (fun w hw id hid => ?_) ((h.each t x hx).reads hread)
        fun u z hz hu => (h.apart t x u z hx hz hu).reads hread
      rw [hx] at hw
      cases hw
      exact hread.presented.trans hid

/-- A step from one stage without a challenge to another. -/
theorem reads_of_stage (now : Int) {stage : Stage} (hearly : early x.stage = true)
    (hstage : challengeOf stage = none) : Reads x { x with now, stage } where
  consumed := rfl
  issued := rfl
  presented := rfl
  challenge c hc := by rw [hstage] at hc; cases hc
  early _ := hearly

/-- A step that leaves the handler nothing more to verify. -/
theorem reads_of_end (registered : Option Credential) {stage : Stage}
    (hend : early stage = false) : Reads x { x with registered, stage } where
  consumed := rfl
  issued := rfl
  presented := rfl
  challenge c hc := by
    rw [early_of_challengeOf hc] at hend
    cases hend
  early h := by
    rw [hend] at h
    cases h

theorem reads_check (hstage : x.stage = .begun) : Reads x (check cfg s x) := by
  have hnone : ∀ refused : Bool,
      challengeOf (if refused then .raised else .allowed) = none := by
    intro refused
    cases refused <;> rfl
  exact reads_of_stage x.now (by rw [hstage]; rfl) (hnone _)

theorem reads_look {body : AssertionVerification}
    (hstage : x.stage = .claimed c) : Reads x (look s c body x) := by
  unfold look
  split
  · exact reads_of_end x.registered rfl
  · refine ⟨rfl, rfl, rfl, fun d hd => ?_, fun _ => by rw [hstage]; rfl⟩
    cases hd
    rw [hstage, challengeOf]

theorem reads_store {body : RegistrationVerification}
    {result : RegistrationResult} : Reads x (store cfg s body result x) := by
  unfold store
  split
  · exact reads_of_end x.registered rfl
  · split
    · exact reads_of_end x.registered rfl
    · split
      · exact reads_of_end x.registered rfl
      · exact reads_of_end _ rfl

/-! ## Holding challenges -/

theorem stillOpen_mem {ids : List Nat} (h : id ∈ stillOpen s ids) :
    ∃ c ∈ s.challenges, c.id = id ∧ c.consumedAt = none ∧ id ∈ ids := by
  obtain ⟨c, hc, rfl⟩ := List.mem_map.mp h
  obtain ⟨hmem, hopen⟩ := List.mem_filter.mp hc
  rw [Bool.and_eq_true, decide_eq_true_iff, Option.isNone_iff_eq_none] at hopen
  exact ⟨c, hmem, rfl, hopen.2, hopen.1⟩

/-- Nobody else holds what is not held. -/
theorem not_held {ids : List Nat} (h : s.held t ids = false)
    (hy : s.txns.get u = some y) (hu : u ≠ t) (hid : id ∈ y.consumed) :
    id ∉ ids := by
  intro hmem
  have hfree := Open.not_of_other h (Open.has_of_get hy) hu
  rw [List.any_eq_false] at hfree
  exact hfree id hid (decide_eq_true hmem)

/-- A request that has verified nothing takes unconsumed challenges nobody
holds. -/
theorem Inv.take (h : Inv s) (hx : s.txns.get t = some x)
    (hearly : early x.stage = true) {ids : List Nat} {stage : Stage}
    (hfree : s.held t ids = false)
    (hids : ∀ id ∈ ids, ∃ c ∈ s.challenges, c.id = id)
    (hstage : ∀ c, challengeOf stage = some c →
      c ∈ s.challenges ∧ c.id ∈ ids ∧ c.consumedAt = none) :
    Inv { s with txns := s.txns.put t { x with consumed := ids, stage } } := by
  have hnone := (h.each t x hx).early hearly
  refine h.put (fun w hw id hid => ?_) ?_ fun u z hz hu => ?_
  · rw [hx] at hw
    cases hw
    exact hid
  · refine ⟨hids, fun c hc => ?_, fun _ => hnone, fun id hid => ?_,
      (h.each t x hx).issued⟩
    · obtain ⟨hmem, hid, hopen⟩ := hstage c hc
      refine ⟨hid, fun hpresented => ?_⟩
      rcases h.spent c hmem hpresented with hconsumed | ⟨u, z, hz, hpz⟩
      · exact hconsumed hopen
      · by_cases hu : u = t
        · rw [hu, hx] at hz
          cases hz
          rw [hnone] at hpz
          cases hpz
        · exact not_held hfree hz hu ((h.each u z hz).presented c.id hpz) hid
    · rw [hnone] at hid
      cases hid
  · exact ⟨fun id hid hz' => not_held hfree hz hu hz' hid,
      (h.apart t x u z hx hz hu).issued⟩

theorem inv_retire (h : Inv s) {ids : List Nat} (hx : s.txns.get t = some x)
    (hstage : x.stage = .retiring ids) (hfree : s.held t ids = false) :
    Inv { s with txns := s.txns.put t (retire s ids x) } := by
  have hfree' : s.held t (stillOpen s ids) = false := by
    rw [State.held, Open.other, List.any_eq_false] at hfree ⊢
    intro e he hany
    refine hfree e he ?_
    rw [Bool.and_eq_true, List.any_eq_true] at hany ⊢
    obtain ⟨hne, id, hid, hmem⟩ := hany
    obtain ⟨_, _, _, _, hids⟩ := stillOpen_mem (of_decide_eq_true hmem)
    exact ⟨hne, id, hid, decide_eq_true hids⟩
  refine h.take hx (by rw [hstage]; rfl) hfree' (fun id hid => ?_) nofun
  obtain ⟨c, hc, hcid, _, _⟩ := stillOpen_mem hid
  exact ⟨c, hc, hcid⟩

theorem inv_claim (h : Inv s) (hx : s.txns.get t = some x)
    (hstage : x.stage = .selected id) (hfree : s.held t [id] = false) :
    Inv { s with txns := s.txns.put t (claim s id x) } := by
  have hearly : early x.stage = true := by rw [hstage]; rfl
  unfold claim
  split
  · have hread : Reads x { x with stage := .done } :=
      reads_of_stage x.now hearly rfl
    refine h.put (fun w hw id hid => ?_) ((h.each t x hx).reads hread)
      fun u z hz hu => (h.apart t x u z hx hz hu).reads hread
    rw [hx] at hw
    cases hw
    exact hid
  · next c hfind =>
      have hmem := List.mem_of_find?_eq_some hfind
      have hopen := List.find?_some hfind
      rw [Bool.and_eq_true, decide_eq_true_iff, Option.isNone_iff_eq_none]
        at hopen
      refine h.take hx hearly hfree (fun i hi => ?_) fun d hd => ?_
      · rw [List.mem_singleton.mp hi]
        exact ⟨c, hmem, hopen.1⟩
      · cases hd
        exact ⟨hmem, List.mem_singleton.mpr hopen.1, hopen.2⟩

/-! ## Inserting a challenge -/

theorem inv_issue (h : Inv s) {raw : Bytes} (hx : s.txns.get t = some x)
    (hstage : x.stage = .retired) :
    Inv { s with
      txns := s.txns.put t (issue cfg s raw x)
      challengeIds := s.challengeIds + 1 } := by
  have hearly : early x.stage = true := by rw [hstage]; rfl
  have hwider : Inv { s with challengeIds := s.challengeIds + 1 } := by
    refine ⟨fun u z hz => ?_, h.apart, fun c hc => ?_, h.ids, h.spent, h.once,
      fun id hid => ?_, h.alone⟩
    · have hz := h.each u z hz
      exact ⟨hz.rows, hz.claimed, hz.early, hz.presented, fun c hc =>
        ⟨Nat.lt_succ_of_lt (hz.issued c hc).1, (hz.issued c hc).2⟩⟩
    · exact Nat.lt_succ_of_lt (h.old c hc)
    · exact Nat.lt_succ_of_lt (h.seen id hid)
  have hsound := h.each t x hx
  refine hwider.put (fun w hw id hid => ?_) ?_ fun u z hz hu => ?_
  · have hw : s.txns.get t = some w := hw
    rw [hx] at hw
    cases hw
    exact hid
  · refine ⟨hsound.rows, nofun, nofun, hsound.presented, fun c hc => ?_⟩
    cases hc
    refine ⟨Nat.lt_succ_self _, fun hseen => ?_, fun d hd hid => ?_⟩
    · exact Nat.lt_irrefl _ (h.seen _ hseen)
    · have hlt := h.old d hd
      rw [hid] at hlt
      exact Nat.lt_irrefl _ hlt
  · refine ⟨(h.apart t x u z hx hz hu).consumed, fun c d hc hd hid => ?_⟩
    cases hc
    have hlt := ((h.each u z hz).issued d hd).1
    rw [← hid] at hlt
    exact Nat.lt_irrefl _ hlt

/-! ## Verifying -/

theorem settle_kept (verdict : Verdict) : (settle s c x verdict).consumed =
    x.consumed ∧ (settle s c x verdict).issued = x.issued := by
  cases verdict with
  | undecodable => exact ⟨rfl, rfl⟩
  | failed fault => cases fault <;> exact ⟨rfl, rfl⟩
  | registration result => exact ⟨rfl, rfl⟩
  | assertion k result => exact ⟨rfl, rfl⟩

theorem settle_end (verdict : Verdict) :
    early (settle s c x verdict).stage = false := by
  cases verdict with
  | undecodable => rfl
  | failed fault => cases fault <;> rfl
  | registration result => rfl
  | assertion k result => rfl

theorem settle_presented (verdict : Verdict) :
    (settle s c x verdict).presented =
      if verdict.called then some c.id else x.presented := by
  cases verdict with
  | undecodable => rfl
  | failed fault => cases fault <;> rfl
  | registration result => rfl
  | assertion k result => rfl

/-- A verification is called with the challenge. -/
theorem Inv.present (h : Inv s) (hx : s.txns.get t = some x)
    (hc : challengeOf x.stage = some c) (hcons : y.consumed = x.consumed)
    (hissued : y.issued = x.issued) (hend : early y.stage = false)
    (hy : y.presented = some c.id) :
    Inv { s with
      txns := s.txns.put t y
      presented := c.id :: s.presented } := by
  have hsound := h.each t x hx
  obtain ⟨hheld, hfresh⟩ := hsound.claimed c hc
  obtain ⟨row, hrow, hrid⟩ := hsound.rows c.id hheld
  have hnone := hsound.early (early_of_challengeOf hc)
  have hget : ∀ u z, (s.txns.put t y).get u = some z →
      (u = t ∧ z = y) ∨ (u ≠ t ∧ s.txns.get u = some z) := by
    intro u z hz
    by_cases hu : u = t
    · rw [hu, Open.get_put] at hz
      exact Or.inl ⟨hu, (Option.some.inj hz).symm⟩
    · exact Or.inr ⟨hu, (Open.get_put_of_ne hu) ▸ hz⟩
  have hnew : ∀ z d, Sound s z → z.issued = some d → d.id ∉ c.id :: s.presented := by
    intro z d hz hd hmem
    obtain ⟨_, hunseen, hrows⟩ := hz.issued d hd
    rcases List.mem_cons.mp hmem with heq | hmem
    · exact hrows row hrow (hrid.trans heq.symm)
    · exact hunseen hmem
  refine ⟨fun u z hz => ?_, fun u z v w hz hw hne => ?_, h.old, h.ids,
    fun d hd hp => ?_, List.nodup_cons.mpr ⟨hfresh, h.once⟩, fun id hid => ?_,
    h.alone⟩
  · rcases hget u z hz with ⟨_, rfl⟩ | ⟨hu, hz⟩
    · refine ⟨fun id hid => hsound.rows id (hcons ▸ hid), fun d hd => ?_,
        fun hearly => ?_, fun id hid => ?_, fun d hd => ?_⟩
      · rw [early_of_challengeOf hd] at hend
        cases hend
      · rw [hend] at hearly
        cases hearly
      · rw [hy] at hid
        cases hid
        rw [hcons]
        exact hheld
      · have hd : x.issued = some d := hissued ▸ hd
        obtain ⟨hlt, _, hrows⟩ := hsound.issued d hd
        exact ⟨hlt, hnew x d hsound hd, hrows⟩
    · have hz' := h.each u z hz
      refine ⟨hz'.rows, fun d hd => ⟨(hz'.claimed d hd).1, fun hmem => ?_⟩,
        hz'.early, hz'.presented, fun d hd => ?_⟩
      · rcases List.mem_cons.mp hmem with heq | hmem
        · refine (h.apart t x u z hx hz hu).consumed c.id hheld ?_
          rw [← heq]
          exact (hz'.claimed d hd).1
        · exact (hz'.claimed d hd).2 hmem
      · obtain ⟨hlt, _, hrows⟩ := hz'.issued d hd
        exact ⟨hlt, hnew z d hz' hd, hrows⟩
  · have hyz : ∀ u z, s.txns.get u = some z → u ≠ t → Apart y z := by
      intro u z hz hu
      have hxz := h.apart t x u z hx hz hu
      exact ⟨fun id hid => hxz.consumed id (hcons ▸ hid),
        fun d e hd he => hxz.issued d e (hissued ▸ hd) he⟩
    rcases hget u z hz with ⟨hu, hzy⟩ | ⟨hu, hz'⟩
    · rcases hget v w hw with ⟨hv, _⟩ | ⟨hv, hw'⟩
      · exact absurd (hv.trans hu.symm) hne
      · rw [hzy]
        exact hyz v w hw' hv
    · rcases hget v w hw with ⟨_, hwy⟩ | ⟨_, hw'⟩
      · rw [hwy]
        exact (hyz u z hz' hu).symm
      · exact h.apart u z v w hz' hw' hne
  · rcases List.mem_cons.mp hp with heq | hp
    · rw [heq]
      exact Or.inr ⟨t, y, Open.get_put, hy⟩
    · rcases h.spent d hd hp with hconsumed | ⟨u, z, hz, hpz⟩
      · exact Or.inl hconsumed
      · have hu : u ≠ t := by
          intro hu
          rw [hu, hx] at hz
          cases hz
          rw [hnone] at hpz
          cases hpz
        exact Or.inr ⟨u, z, (Open.get_put_of_ne hu).trans hz, hpz⟩
  · rcases List.mem_cons.mp hid with heq | hid
    · rw [heq, ← hrid]
      exact h.old row hrow
    · exact h.seen id hid

/-- The authenticators do not matter. -/
theorem Inv.others (h : Inv s) {credentials : List Credential}
    {credentialIds : Nat} {accepted : List (Nat × Nat)} :
    Inv { s with credentials, credentialIds, accepted } where
  each t x hx :=
    let hx := h.each t x hx
    ⟨hx.rows, hx.claimed, hx.early, hx.presented, hx.issued⟩
  apart := h.apart
  old := h.old
  ids := h.ids
  spent := h.spent
  once := h.once
  seen := h.seen
  alone := h.alone

theorem inv_verify (h : Inv s) : Inv (s.verify cfg t) := by
  unfold State.verify
  split
  · exact h
  · next x hx =>
      split
      · exact h
      · next c verdict hexamine =>
          have hc := challengeOf_examine hexamine
          obtain ⟨hcons, hissued⟩ := settle_kept (s := s) (c := c) (x := x) verdict
          have hend := settle_end (s := s) (c := c) (x := x) verdict
          have hpres := settle_presented (s := s) (c := c) (x := x) verdict
          by_cases hcalled : verdict.called = true
          · rw [if_pos hcalled] at hpres ⊢
            exact (h.present hx hc hcons hissued hend hpres).others
          · rw [if_neg hcalled] at hpres ⊢
            have hread : Reads x (settle s c x verdict) := by
              refine ⟨hcons, hissued, hpres, fun d hd => ?_, fun hearly => ?_⟩
              · rw [early_of_challengeOf hd] at hend
                cases hend
              · rw [hend] at hearly
                cases hearly
            have hgo : Inv (s.go t fun x => settle s c x verdict) := by
              refine h.go_of_reads fun w hw => ?_
              rw [hx] at hw
              cases hw
              exact hread
            rw [State.go, hx] at hgo
            exact hgo.others

/-! ## Ending a transaction -/

theorem Inv.close (h : Inv s)
    (hx : ∀ x, s.txns.get t = some x → x.presented = none) :
    Inv { s with txns := s.txns.close t } := by
  have hget : ∀ u z, (s.txns.close t).get u = some z →
      u ≠ t ∧ s.txns.get u = some z := by
    intro u z hz
    by_cases hu : u = t
    · rw [hu, Open.get_close] at hz
      cases hz
    · exact ⟨hu, Open.get_close_of_ne hu ▸ hz⟩
  refine ⟨fun u z hz => ?_, fun u z v w hz hw hne => ?_, h.old, h.ids,
    fun c hc hp => ?_, h.once, h.seen, h.alone⟩
  · have hz := h.each u z (hget u z hz).2
    exact ⟨hz.rows, hz.claimed, hz.early, hz.presented, hz.issued⟩
  · exact h.apart u z v w (hget u z hz).2 (hget v w hw).2 hne
  · rcases h.spent c hc hp with hconsumed | ⟨u, z, hz, hpz⟩
    · exact Or.inl hconsumed
    · by_cases hu : u = t
      · rw [hu] at hz
        rw [hx z hz] at hpz
        cases hpz
      · exact Or.inr ⟨u, z, (Open.get_close_of_ne hu).trans hz, hpz⟩

theorem spend_id (x : Txn) (c : Challenge) : (x.spend c).id = c.id := by
  unfold Txn.spend
  split <;> rfl

theorem spend_of_open (h : (x.spend c).consumedAt = none) :
    x.spend c = c ∧ c.id ∉ x.consumed := by
  unfold Txn.spend at h ⊢
  split at h
  · cases h
  · next hid => exact ⟨if_neg hid, hid⟩

/-- Of the outstanding challenges of its operator and purpose, those that have
not expired are the ones a start has retired. -/
def RetiredAll (s : State) (x : Txn) : Prop :=
  ∀ c, x.issued = some c → ∀ d, Spendable s d → d.operatorId = c.operatorId →
    d.purpose = c.purpose → d.id ∈ x.consumed

theorem alone_commit (h : Inv s) (hall : RetiredAll s x) :
    Alone { s.commit x with txns := s.txns.close t } := by
  have hcases : ∀ c, Spendable { s.commit x with txns := s.txns.close t } c →
      (Spendable s c ∧ c.id ∉ x.consumed) ∨ x.issued = some c := by
    intro c hc
    obtain ⟨hmem, hopen, hlive⟩ := hc
    rcases List.mem_append.mp hmem with hold | hnew
    · obtain ⟨d, hd, rfl⟩ := List.mem_map.mp hold
      obtain ⟨heq, hid⟩ := spend_of_open hopen
      rw [heq] at hopen hlive ⊢
      exact Or.inl ⟨⟨hd, hopen, hlive⟩, hid⟩
    · exact Or.inr (Option.mem_toList.mp hnew)
  intro c d hc hd hop hpurpose
  rcases hcases c hc with ⟨hc, hcid⟩ | hc
  · rcases hcases d hd with ⟨hd, _⟩ | hd
    · exact h.alone c d hc hd hop hpurpose
    · exact absurd (hall d hd c hc hop hpurpose) hcid
  · rcases hcases d hd with ⟨hd, hdid⟩ | hd
    · exact absurd (hall c hc d hd hop.symm hpurpose.symm) hdid
    · exact Option.some.inj (hc.symm.trans hd)

theorem inv_commit (h : Inv s) (hx : s.txns.get t = some x)
    (hall : RetiredAll s x) :
    Inv { s.commit x with txns := s.txns.close t } := by
  have hget : ∀ u z, (s.txns.close t).get u = some z →
      u ≠ t ∧ s.txns.get u = some z := by
    intro u z hz
    by_cases hu : u = t
    · rw [hu, Open.get_close] at hz
      cases hz
    · exact ⟨hu, Open.get_close_of_ne hu ▸ hz⟩
  have hsound := h.each t x hx
  have hmem : ∀ c ∈ s.challenges.map x.spend ++ x.issued.toList,
      (∃ d ∈ s.challenges, c = x.spend d) ∨ x.issued = some c := by
    intro c hc
    rcases List.mem_append.mp hc with hold | hnew
    · obtain ⟨d, hd, rfl⟩ := List.mem_map.mp hold
      exact Or.inl ⟨d, hd, rfl⟩
    · exact Or.inr (Option.mem_toList.mp hnew)
  refine ⟨fun u z hz => ?_, fun u z v w hz hw hne => ?_, fun c hc => ?_, ?_,
    fun c hc hp => ?_, h.once, h.seen, alone_commit h hall⟩
  · obtain ⟨hu, hz⟩ := hget u z hz
    have hz' := h.each u z hz
    refine ⟨fun id hid => ?_, hz'.claimed, hz'.early, hz'.presented,
      fun c hc => ?_⟩
    · obtain ⟨d, hd, hdid⟩ := hz'.rows id hid
      exact ⟨x.spend d, List.mem_append_left _ (List.mem_map_of_mem hd),
        (spend_id x d).trans hdid⟩
    · obtain ⟨hlt, hunseen, hrows⟩ := hz'.issued c hc
      refine ⟨hlt, hunseen, fun d hd => ?_⟩
      rcases hmem d hd with ⟨e, he, rfl⟩ | hd
      · rw [spend_id]
        exact hrows e he
      · exact (h.apart t x u z hx hz hu).issued d c hd hc
  · exact h.apart u z v w (hget u z hz).2 (hget v w hw).2 hne
  · rcases hmem c hc with ⟨d, hd, rfl⟩ | hc
    · rw [spend_id]
      exact h.old d hd
    · exact (hsound.issued c hc).1
  · have hids : (s.challenges.map x.spend).map (·.id) =
        s.challenges.map (·.id) := by
      rw [List.map_map]
      exact List.map_congr_left fun d _ => spend_id x d
    show ((s.challenges.map x.spend ++ x.issued.toList).map (·.id)).Nodup
    rw [List.map_append, hids, List.nodup_append]
    refine ⟨h.ids, ?_, fun id hid jd hjd => ?_⟩
    · cases x.issued with
      | none => exact List.nodup_nil
      | some c => exact List.nodup_singleton _
    · obtain ⟨d, hd, rfl⟩ := List.mem_map.mp hid
      obtain ⟨c, hc, rfl⟩ := List.mem_map.mp hjd
      exact (hsound.issued c (Option.mem_toList.mp hc)).2.2 d hd
  · rcases hmem c hc with ⟨d, hd, rfl⟩ | hc
    · rw [spend_id] at hp
      have hheld : d.id ∈ x.consumed → (x.spend d).consumedAt ≠ none := by
        intro hid hopen
        exact (spend_of_open hopen).2 hid
      rcases h.spent d hd hp with hconsumed | ⟨u, z, hz, hpz⟩
      · refine Or.inl fun hopen => hconsumed ?_
        rw [(spend_of_open hopen).1] at hopen
        exact hopen
      · by_cases hu : u = t
        · rw [hu, hx] at hz
          cases hz
          exact Or.inl (hheld (hsound.presented d.id hpz))
        · refine Or.inr ⟨u, z, (Open.get_close_of_ne hu).trans hz, ?_⟩
          rw [spend_id]
          exact hpz
    · exact absurd hp (hsound.issued c hc).2.1

/-! ## Whole runs -/

/-- Two conditions on a run: a request that verified with its challenge is not
rolled back, and a start commits when it has retired every challenge that may
be spent for its operator and purpose. -/
def Clear (s : State) : Action → Prop
  | .rollback t => ∀ x, s.txns.get t = some x → x.presented = none
  | .commit t => ∀ x, s.txns.get t = some x → RetiredAll s x
  | _ => True

theorem inv_tick (h : Inv s) {n : Nat} : Inv { s with clock := s.clock + n } where
  each t x hx :=
    let hx := h.each t x hx
    ⟨hx.rows, hx.claimed, hx.early, hx.presented, hx.issued⟩
  apart := h.apart
  old := h.old
  ids := h.ids
  spent := h.spent
  once := h.once
  seen := h.seen
  alone c d hc hd := by
    have hearlier : ∀ e, Spendable { s with clock := s.clock + n } e →
        Spendable s e := by
      intro e he
      have hlive : s.clock + n < e.expiresAt := he.2.2
      exact ⟨he.1, he.2.1, by omega⟩
    exact h.alone c d (hearlier c hc) (hearlier d hd)

theorem inv_arrive (h : Inv s) {operatorId : String} {request : Request}
    (hnone : s.txns.get t = none) :
    Inv { s with txns := s.txns.put t { request, operatorId } } := by
  refine h.put (fun x hx => ?_) ⟨nofun, nofun, fun _ => rfl, nofun, nofun⟩
    fun u z hz hu => ⟨nofun, fun c d hc => ?_⟩
  · rw [hnone] at hx
    cases hx
  · cases hc

theorem inv_purge (h : Inv s) {ids : List Nat}
    (hfree : (s.txns.entries.any fun e =>
      e.2.consumed.any fun id => decide (id ∈ ids)) = false) :
    Inv { s with
      challenges := s.challenges.filter fun c => decide (c.id ∉ ids) } := by
  have hmem : ∀ c ∈ s.challenges.filter fun c => decide (c.id ∉ ids),
      c ∈ s.challenges := fun c hc => (List.mem_filter.mp hc).1
  refine ⟨fun t x hx => ?_, h.apart, fun c hc => h.old c (hmem c hc),
    h.ids.sublist (List.filter_sublist.map _),
    fun c hc => h.spent c (hmem c hc), h.once, h.seen, fun c d hc hd =>
      h.alone c d ⟨hmem c hc.1, hc.2⟩ ⟨hmem d hd.1, hd.2⟩⟩
  have hx' := h.each t x hx
  refine ⟨fun id hid => ?_, hx'.claimed, hx'.early, hx'.presented, fun c hc =>
    ⟨(hx'.issued c hc).1, (hx'.issued c hc).2.1, fun d hd =>
      (hx'.issued c hc).2.2 d (hmem d hd)⟩⟩
  obtain ⟨c, hc, hcid⟩ := hx'.rows id hid
  refine ⟨c, List.mem_filter.mpr ⟨hc, decide_eq_true fun hin => ?_⟩, hcid⟩
  rw [List.any_eq_false] at hfree
  refine hfree (t, x) (Open.has_of_get hx) (List.any_eq_true.mpr ⟨id, hid, ?_⟩)
  rw [← hcid]
  exact decide_eq_true hin

theorem stands_eq_true {p : Txn → Bool} :
    s.stands t p = true ↔ ∃ x, s.txns.get t = some x ∧ p x = true := by
  unfold State.stands
  split
  · next hnone =>
      refine ⟨nofun, fun ⟨x, hx, _⟩ => ?_⟩
      rw [hnone] at hx
      cases hx
  · next x hx =>
      refine ⟨fun hp => ⟨x, hx, hp⟩, fun ⟨y, hy, hp⟩ => ?_⟩
      rw [hx] at hy
      cases hy
      exact hp

theorem go_eq {step : Txn → Txn} (hx : s.txns.get t = some x) :
    s.go t step = { s with txns := s.txns.put t (step x) } := by
  rw [State.go, hx]

/-- Every clear action keeps the invariant. -/
theorem inv_next {a : Action} (h : Inv s) (henabled : enabled cfg s a = true)
    (hclear : Clear s a) : Inv (next cfg s a) := by
  cases a with
  | tick n => exact inv_tick h
  | arrive t operatorId request =>
      have hfree := (Bool.and_eq_true_iff.mp henabled).1
      exact inv_arrive h (Option.isNone_iff_eq_none.mp hfree)
  | check t =>
      obtain ⟨x, hx, hstage⟩ := stands_eq_true.mp henabled
      rw [Bool.and_eq_true, decide_eq_true_iff] at hstage
      refine h.go_of_reads fun y hy => reads_check ?_
      rw [hx] at hy
      cases hy
      exact hstage.1
  | scan t =>
      obtain ⟨x, hx, hstage⟩ := stands_eq_true.mp henabled
      refine h.go_of_reads fun y hy => reads_of_stage _ ?_ rfl
      rw [hx] at hy
      cases hy
      rw [of_decide_eq_true hstage]
      rfl
  | retire t =>
      obtain ⟨x, hx, hmay⟩ := stands_eq_true.mp henabled
      show Inv (s.go t (stepRetire s))
      unfold Txn.mayRetire at hmay
      split at hmay
      · next ids hstage =>
          rw [go_eq hx, stepRetire, hstage]
          rw [Bool.not_eq_true'] at hmay
          exact inv_retire h hx hstage hmay
      · cases hmay
  | issue t raw =>
      rw [enabled, Bool.and_eq_true] at henabled
      obtain ⟨x, hx, hstage⟩ := stands_eq_true.mp henabled.2
      show Inv { s.go t (issue cfg s raw) with
        challengeIds := s.challengeIds + 1 }
      rw [go_eq hx]
      exact inv_issue h hx (of_decide_eq_true hstage)
  | select t pick =>
      obtain ⟨x, hx, hmay⟩ := stands_eq_true.mp henabled
      rw [Txn.maySelect, Bool.and_eq_true, Bool.and_eq_true,
        decide_eq_true_iff] at hmay
      refine h.go_of_reads fun y hy => reads_of_stage _ ?_ ?_
      · rw [hx] at hy
        cases hy
        rw [hmay.1.1]
        rfl
      · cases pick <;> rfl
  | claim t =>
      obtain ⟨x, hx, hmay⟩ := stands_eq_true.mp henabled
      show Inv (s.go t (stepClaim s))
      unfold Txn.mayClaim at hmay
      split at hmay
      · next id hstage =>
          rw [go_eq hx, stepClaim, hstage]
          rw [Bool.not_eq_true'] at hmay
          exact inv_claim h hx hstage hmay
      · cases hmay
  | look t =>
      refine h.go_of_reads fun y hy => ?_
      unfold stepLook
      split
      · next hstage _ => exact reads_look hstage
      · exact ⟨rfl, rfl, rfl, fun _ hc => hc, fun hearly => hearly⟩
  | verify t => exact inv_verify h
  | store t =>
      have hgo : Inv (s.go t (stepStore cfg s)) := h.go_of_reads fun y _ => by
        unfold stepStore
        split
        · exact reads_store
        · exact ⟨rfl, rfl, rfl, fun _ hc => hc, fun hearly => hearly⟩
      exact hgo.others
  | commit t =>
      obtain ⟨x, hx, _⟩ := stands_eq_true.mp henabled
      have hinv := inv_commit h hx (hclear x hx)
      rw [next, hx]
      exact hinv
  | rollback t => exact h.close hclear
  | purge ids =>
      rw [enabled, Bool.and_eq_true, Bool.not_eq_true'] at henabled
      exact inv_purge h henabled.1
  | revoke id => exact h.others

/-- In every run whose actions are clear, each challenge is verified with once
at most, and one at most may be spent for an operator and a purpose. -/
theorem challenges_single_use_while {clock : Int} {acts : List Action}
    (hruns : (system cfg).runs { clock } acts = true)
    (hclear : (system cfg).Each Clear { clock } acts) :
    ((system cfg).run { clock } acts).presented.Nodup ∧
      Alone ((system cfg).run { clock } acts) := by
  have hinv := System.invariant_run (I := Inv)
    (fun _ _ h henabled hclear => inv_next h henabled hclear)
    (inv_initial clock) hruns hclear
  exact ⟨hinv.once, hinv.alone⟩

/-! ## A deployment -/

/-- No sample has a number with a point. -/
def noFloats : FloatText := ⟨fun _ => 0, fun _ => "0.0"⟩

/-- The key of an authenticator. -/
def sampleKey : PublicKey :=
  .p256
    14227042228263630743613429208621916958471033219385723862600467488410165967609
    6238398710969060433932246965002844008218207557905130224426284878504765986222

/-- `rmm.example` -/
def sampleRpIdHash : Bytes :=
  [136, 102, 118, 142, 180, 10, 208, 183, 10, 190, 40, 102, 24, 254,
    150, 144, 222, 76, 203, 156, 22, 244, 159, 118, 175, 142, 217, 114,
    140, 132, 96, 144]

/-- The library where only `sampleKey` signs, with the digests and signatures
that occur. -/
def sampleLib (digests : List (Bytes × Bytes))
    (signatures : List (Bytes × Bytes)) : WebAuthnLib where
  sha256 bs :=
    if bs = utf8 "rmm.example".toList then sampleRpIdHash
    else ((digests.find? fun e => decide (e.1 = bs)).map (·.2)).getD []
  loads text :=
    match PyValue.loads noFloats text with
    | some value => .ok value
    | none => .error .decode
  validKey key := decide (key = sampleKey)
  verify key signature signed :=
    decide (key = sampleKey) && signatures.contains (signature, signed)

def sampleConfig (digests signatures : List (Bytes × Bytes)) : Config where
  lib := sampleLib digests signatures
  rpId := "rmm.example"
  origins := ["https://rmm.example"]

/-- What a browser writes. -/
def clientData (ceremony : String) (challenge : Bytes) : Bytes :=
  utf8 ("\x7b\"type\":\"".toList ++ ceremony.toList ++
    "\",\"challenge\":\"".toList ++ ((unpadded challenge).map urlSafe) ++
    "\",\"origin\":\"https://rmm.example\"\x7d".toList)

theorem clientData_ne_nil {ceremony : String} {challenge : Bytes} :
    clientData ceremony challenge ≠ [] := by
  simp only [clientData, utf8_append, List.append_assoc]
  exact List.append_ne_nil_of_left_ne_nil (by decide) _

def sampleCredentialId : Bytes :=
  [1, 2, 3, 4, 5, 6, 7, 8, 9, 10, 11, 12, 13, 14, 15, 16]

def sampleCoseKey : Bytes :=
  [165, 1, 2, 3, 38, 32, 1, 33, 88, 32, 31, 116, 56, 117, 100, 67, 67, 121, 42,
   133, 174, 158, 77, 226, 33, 70, 205, 50, 100, 40, 189, 127, 8, 7, 62, 167,
   91, 100, 188, 173, 250, 249, 34, 88, 32, 13, 202, 206, 252, 177, 17, 59,
   150, 72, 242, 118, 140, 28, 55, 241, 153, 183, 12, 49, 238, 134, 149, 98,
   35, 254, 93, 238, 244, 35, 32, 149, 174]

/-- The data of the authenticator when it registers, under flags for presence,
verification and attested data. -/
def sampleAttestedData : Bytes :=
  sampleRpIdHash ++ [0x45, 0, 0, 0, 0] ++ List.replicate 16 0 ++ [0, 16] ++
    sampleCredentialId ++ sampleCoseKey

/-- `{"fmt": "none", "attStmt": {}, "authData": ...}` -/
def sampleAttestation : Bytes :=
  [0xa3, 0x63] ++ utf8 "fmt".toList ++ [0x64] ++ utf8 "none".toList ++ [0x67] ++
    utf8 "attStmt".toList ++ [0xa0, 0x68] ++ utf8 "authData".toList ++
    [0x58, 148] ++ sampleAttestedData

def sampleRegistration (challenge : Bytes) : RegistrationVerification where
  name := "key"
  clientDataJson := b64urlEncode (clientData "webauthn.create" challenge)
  attestationObject := b64urlEncode sampleAttestation

def sampleResult : RegistrationResult where
  credentialId := sampleCredentialId
  publicKeyCose := sampleCoseKey
  algorithm := -7
  signCount := 0
  aaguid := List.replicate 16 0
  userVerified := true
  backupEligible := false
  backupState := false
  attestationFormat := "none"

/-- The bytes of challenge `n`. -/
def sampleChallenge (n : UInt8) : Bytes := List.replicate 32 n

/-- The registration over challenge `n` verifies. -/
def Registers (lib : WebAuthnLib) (n : UInt8) : Prop :=
  (verifyRegistration lib (clientData "webauthn.create" (sampleChallenge n))
    sampleAttestation (sampleChallenge n) ["https://rmm.example"] "rmm.example"
    true).toOption = some sampleResult

instance (lib : WebAuthnLib) (n : UInt8) : Decidable (Registers lib n) :=
  inferInstanceAs (Decidable (_ = _))

theorem registers_sample : ∀ n ∈ ([1, 2] : List UInt8),
    Registers (sampleLib [] []) n := by decide +kernel

/-- The challenge of a start, with number `id` and the bytes `n`. -/
def challengeRow (id : Nat) (purpose : Purpose) (n : UInt8) : Challenge where
  id := id
  operatorId := "op-1"
  purpose := purpose
  challenge := sampleChallenge n
  rpId := "rmm.example"
  createdAt := 0
  expiresAt := 300000000

theorem verifyRegister_of_ok {body : RegistrationVerification}
    {clientDataJson attestationObject : Bytes} {result : RegistrationResult}
    (hclient : decodeField body.clientDataJson .malformedClientData =
      .ok clientDataJson)
    (hattestation : decodeField body.attestationObject
      .malformedAttestationObject = .ok attestationObject)
    (hok : verifyRegistration cfg.lib clientDataJson attestationObject c.challenge
      cfg.origins c.rpId cfg.requireUserVerification = .ok result) :
    verifyRegister cfg c body = .registration result := by
  unfold verifyRegister
  rw [hclient, hattestation]
  simp only [hok]

theorem sampleAttestation_ne_nil : sampleAttestation ≠ [] :=
  List.cons_ne_nil _ _

theorem verifyRegister_sample {digests signatures : List (Bytes × Bytes)}
    (id : Nat) {n : UInt8} (hn : Registers (sampleLib digests signatures) n) :
    verifyRegister (sampleConfig digests signatures)
      (challengeRow id .registration n) (sampleRegistration (sampleChallenge n)) =
        .registration sampleResult :=
  verifyRegister_of_ok (decodeField_b64urlEncode clientData_ne_nil)
    (decodeField_b64urlEncode sampleAttestation_ne_nil) (eq_ok_of_toOption hn)

theorem verify_eq {verdict : Verdict} (hx : s.txns.get t = some x)
    (hexamine : examine cfg x = some (c, verdict)) :
    s.verify cfg t =
      { s with
        txns := s.txns.put t (settle s c x verdict)
        presented := if verdict.called then c.id :: s.presented else s.presented
        accepted := verdict.counted.toList ++ s.accepted } := by
  rw [State.verify, hx]
  simp only [hexamine]

/-- A start, all of it. -/
def start (t : Nat) (purpose : Purpose) (n : UInt8) : List Action :=
  [.arrive t "op-1" (.options purpose), .check t, .scan t, .retire t,
    .issue t (sampleChallenge n), .commit t]

/-- A registration up to its verification, over challenge `id`. -/
def register (t id : Nat) (n : UInt8) : List Action :=
  [.arrive t "op-1" (.register (sampleRegistration (sampleChallenge n))),
    .select t (some id), .claim t]

/-- The first registration, and what follows it up to another. -/
def registerOnce : List Action :=
  start 0 .registration 1 ++ register 1 0 1

def registerAgain : List Action :=
  [.store 1, .commit 1] ++ start 2 .registration 2 ++ register 3 1 2

/-- An authenticator that is registered already: the handler raises. -/
def registerRefused : List Action := [.store 3, .rollback 3] ++ register 4 1 2

def twiceVerified : List Action :=
  registerOnce ++ [.verify 1] ++ registerAgain ++ [.verify 3] ++
    registerRefused ++ [.verify 4]

/-- A registration that stands before its verification over `c`. -/
def claimedTxn (c : Challenge) (n : UInt8) : Txn where
  request := .register (sampleRegistration (sampleChallenge n))
  operatorId := "op-1"
  stage := .claimed c
  consumed := [c.id]

/-- The state after the verification of `claimedTxn`. -/
def afterVerify (s : State) (t : Nat) (c : Challenge) (n : UInt8) : State :=
  { s with
    txns := s.txns.put t
      { claimedTxn c n with
        presented := some c.id
        stage := .verified sampleResult }
    presented := c.id :: s.presented }

theorem next_verify_sample {digests signatures : List (Bytes × Bytes)}
    {n : UInt8} (hn : Registers (sampleLib digests signatures) n)
    (hx : s.txns.get t =
      some (claimedTxn (challengeRow id .registration n) n)) :
    enabled (sampleConfig digests signatures) s (.verify t) = true ∧
      next (sampleConfig digests signatures) s (.verify t) =
        afterVerify s t (challengeRow id .registration n) n := by
  have hexamine : examine (sampleConfig digests signatures)
      (claimedTxn (challengeRow id .registration n) n) =
        some (challengeRow id .registration n, .registration sampleResult) := by
    rw [← verifyRegister_sample id hn]
    rfl
  constructor
  · rw [enabled]
    exact stands_eq_true.mpr ⟨_, hx, congrArg Option.isSome hexamine⟩
  · rw [next, verify_eq hx hexamine]
    rfl

/-- `acts` can be played and ends in `s'`. -/
def Plays (cfg : Config) (s : State) (acts : List Action) (s' : State) : Prop :=
  (system cfg).runs s acts = true ∧ (system cfg).run s acts = s'

theorem Plays.append {s'' : State} {pre post : List Action}
    (h : Plays cfg s pre s') (h' : Plays cfg s' post s'') :
    Plays cfg s (pre ++ post) s'' := by
  obtain ⟨hruns, hrun⟩ := h
  obtain ⟨hruns', hrun'⟩ := h'
  rw [← hrun] at hruns' hrun'
  exact ⟨System.runs_append.mpr ⟨hruns, hruns'⟩,
    (System.run_append _ _).trans hrun'⟩

theorem plays_of_runs (acts : List Action)
    (h : (system cfg).runs s acts = true) :
    Plays cfg s acts ((system cfg).run s acts) := ⟨h, rfl⟩

theorem plays_verify {digests signatures : List (Bytes × Bytes)} (id : Nat)
    {n : UInt8}
    (hn : Registers (sampleLib digests signatures) n)
    (hx : s.txns.get t =
      some (claimedTxn (challengeRow id .registration n) n)) :
    Plays (sampleConfig digests signatures) s [.verify t]
      (afterVerify s t (challengeRow id .registration n) n) := by
  obtain ⟨henabled, hnext⟩ := next_verify_sample hn hx
  exact ⟨System.runs_cons.mpr ⟨henabled, rfl⟩, hnext⟩

/-- A challenge is verified with again after a registration over it was
refused. -/
theorem twiceVerified_presents : ∃ s,
    Plays (sampleConfig [] []) {} twiceVerified s ∧ s.presented = [1, 1, 0] := by
  have h1 : Plays (sampleConfig [] []) {} registerOnce _ :=
    plays_of_runs _ (by decide +kernel)
  have h2 := h1.append (plays_verify (t := 1) 0
    (registers_sample 1 (by decide)) rfl)
  have h3 := h2.append (plays_of_runs registerAgain (by decide +kernel))
  have h4 := h3.append (plays_verify (t := 3) 1
    (registers_sample 2 (by decide)) rfl)
  have h5 := h4.append
    (plays_of_runs registerRefused (by decide +kernel))
  have h6 := h5.append (plays_verify (t := 4) 1
    (registers_sample 2 (by decide)) rfl)
  exact ⟨_, h6, rfl⟩

/-- Two starts side by side: neither sees the challenge of the other. -/
def parallelStarts : List Action :=
  [.arrive 0 "op-1" (.options .registration),
    .arrive 1 "op-1" (.options .registration), .check 0, .check 1, .scan 0,
    .scan 1, .retire 0, .retire 1, .issue 0 (sampleChallenge 1),
    .issue 1 (sampleChallenge 2), .commit 0, .commit 1]

/-- One challenge is verified with twice in one run, and another leaves two that
may be spent. -/
theorem challenges_not_single_use :
    (∃ s, Plays (sampleConfig [] []) {} twiceVerified s ∧ ¬ s.presented.Nodup) ∧
      ∃ s, Plays (sampleConfig [] []) {} parallelStarts s ∧ ¬ Alone s := by
  constructor
  · obtain ⟨s, hplays, hpresented⟩ := twiceVerified_presents
    refine ⟨s, hplays, ?_⟩
    rw [hpresented]
    decide
  · refine ⟨_, plays_of_runs _ (by decide +kernel), fun halone => ?_⟩
    have heq := halone (challengeRow 0 .registration 1)
      (challengeRow 1 .registration 2)
      ⟨List.mem_cons_self, rfl, by decide⟩
      ⟨List.mem_cons_of_mem _ List.mem_cons_self, rfl, by decide⟩ rfl rfl
    exact absurd (congrArg Challenge.id heq) (by decide)

theorem clear_commit (hx : s.txns.get t = some x)
    (hall : ∀ d ∈ s.challenges, d.consumedAt = none → d.id ∈ x.consumed) :
    Clear s (.commit t) := by
  intro y hy
  rw [hx] at hy
  cases hy
  exact fun _ _ d hd _ _ => hall d hd.1 hd.2.1

/-- A second start, and a registration over its challenge. -/
def clearRun : List Action :=
  start 0 .registration 1 ++ start 1 .registration 2 ++ register 2 1 2 ++
    [.verify 2]

theorem challenges_single_use_while_sample : ∃ s,
    Plays (sampleConfig [] []) {} clearRun s ∧ s.presented = [1] ∧ Alone s := by
  have hruns : Plays (sampleConfig [] []) {}
      (start 0 .registration 1 ++ start 1 .registration 2 ++ register 2 1 2) _ :=
    plays_of_runs _ (by decide +kernel)
  have hplays := hruns.append
    (plays_verify (t := 2) 1 (registers_sample 2 (by decide)) rfl)
  have hclear : (system (sampleConfig [] [])).Each Clear {} clearRun := by
    refine ⟨trivial, trivial, trivial, trivial, trivial,
      clear_commit rfl (by decide), trivial, trivial, trivial, trivial, trivial,
      clear_commit rfl (by decide), trivial, trivial, trivial, trivial, trivial⟩
  have hkept := @challenges_single_use_while (sampleConfig [] []) 0 clearRun hplays.1 hclear
  refine ⟨_, hplays, rfl, ?_⟩
  rw [← hplays.2]
  exact hkept.2

end NodeLink.Proofs.ChallengeUses
