import Mathlib
import NodeLink.Proofs.RolloutControl
import NodeLink.Proofs.UpdateAttempts
import NodeLink.Server.UpdateAccounts

/-!
# Attempts that are accounted for, and attempts that are left over

An attempt leaves `dispatched` by a report of its endpoint and in no other way,
and the endpoint reports what it finds in its journal at a start. So an attempt
that reached the journal is recorded by the first start that goes through; one
whose command ended before that stays dispatched for ever, and every advance
passes its endpoint over, since it has an attempt.
-/

namespace NodeLink.Proofs.UpdateAccounting

open Lib Agent.SelfUpdate Server.Rollouts Server.UpdateAccounts
open Server.AgentUpdates (AgentUpdateRelease AgentUpdateAttempt AttemptStatus
  UpdateAgent UpdateOps passOver target newAttempt)
open RolloutControl (map_withOutcome committed)

/-! ## Attempts at the server -/

section Server

variable {ops : UpdateOps} {agentId : String} {confirmed : Bool}
  {s s' : State} {t : Nat} {x : Txn}

/-- An outcome the endpoint reports. -/
def Told (confirmed : Bool) (status : AttemptStatus) : Prop :=
  status = .failed ∨ status = .rolledBack ∨
    (status = .succeeded ∧ confirmed = true)

theorem Told.ne_dispatched {status : AttemptStatus}
    (h : Told confirmed status) : status ≠ .dispatched := by
  rintro rfl
  rcases h with h | h | ⟨h, -⟩
  · cases h
  · cases h
  · cases h

theorem Told.mono {confirmed' : Bool} {status : AttemptStatus}
    (h : Told confirmed status)
    (hc : confirmed = true → confirmed' = true) : Told confirmed' status := by
  rcases h with h | h | ⟨h, hconfirmed⟩
  · exact .inl h
  · exact .inr (.inl h)
  · exact .inr (.inr ⟨h, hc hconfirmed⟩)

/-- A request of the server that is under way: what it adds is dispatched, and
where it changes the endpoint's attempt, it is to an outcome. -/
structure TxnSound (agentId : String) (confirmed : Bool) (x : Txn) : Prop where
  added : ∀ w, x.writes = some w → ∀ a ∈ w.attempts, a.status = .dispatched
  told : ∀ body, x.request = .report agentId body → Told confirmed body.status
  read : ∀ a, x.attempt = some a →
    ∃ body, x.request = .report a.agentId body
  changed : ∀ w, x.writes = some w → ∀ a new, w.outcome = some (a, new) →
    a.agentId = agentId → Told confirmed new.status

structure ServerSound (agentId : String) (confirmed : Bool) (s : State) :
    Prop where
  attempts : (s.attempts.map (·.agentId)).Nodup
  rows : ∀ a ∈ s.attempts, a.agentId = agentId →
    a.status = .dispatched ∨ Told confirmed a.status
  txns : ∀ t x, s.txns.Has t x → TxnSound agentId confirmed x

/-- The endpoint has an attempt. -/
def Attempted (agentId : String) (s : State) : Prop :=
  ∃ a ∈ s.attempts, a.agentId = agentId

/-- What no action of the server takes back. -/
structure Onward (agentId : String) (s s' : State) : Prop where
  attempted : Attempted agentId s → Attempted agentId s'
  recorded : Recorded agentId s → Recorded agentId s'

theorem Onward.refl : Onward agentId s s := ⟨fun h => h, fun h => h⟩

theorem Onward.trans {s'' : State} (h : Onward agentId s s')
    (h' : Onward agentId s' s'') : Onward agentId s s'' :=
  ⟨fun hs => h'.attempted (h.attempted hs),
    fun hs => h'.recorded (h.recorded hs)⟩

theorem Onward.of_eq (h : s'.attempts = s.attempts) : Onward agentId s s' := by
  constructor
  · rintro ⟨a, ha, hid⟩
    exact ⟨a, h ▸ ha, hid⟩
  · rintro ⟨a, ha, hid⟩
    exact ⟨a, h ▸ ha, hid⟩

/-- Nothing is added and no attempt is changed. -/
theorem txnSound_plain
    (htold : ∀ body, x.request = .report agentId body →
      Told confirmed body.status)
    (hattempt : x.attempt = none)
    (hw : ∀ w, x.writes = some w → w.attempts = [] ∧ w.outcome = none) :
    TxnSound agentId confirmed x where
  added w h a ha := by
    rw [(hw w h).1] at ha
    exact absurd ha List.not_mem_nil
  told := htold
  read a ha := by
    rw [hattempt] at ha
    cases ha
  changed w h a new hout := by
    rw [(hw w h).2] at hout
    cases hout

theorem txnSound_opened {now : Int} {request : Request}
    (h : ∀ body, request = .report agentId body → Told confirmed body.status) :
    TxnSound agentId confirmed (opened s now request) := by
  cases request with
  | advance rolloutPercent maxDispatch =>
      exact txnSound_plain (fun _ h => by cases h) rfl (fun _ h => by cases h)
  | pause =>
      refine txnSound_plain (fun _ h => by cases h) rfl fun w hw => ?_
      cases hw
      exact ⟨rfl, rfl⟩
  | resume =>
      exact txnSound_plain (fun _ h => by cases h) rfl (fun _ h => by cases h)
  | halt =>
      refine txnSound_plain (fun _ h => by cases h) rfl fun w hw => ?_
      cases hw
      exact ⟨rfl, rfl⟩
  | report id body =>
      refine ⟨fun _ h => (by cases h), h, fun a ha => ?_, fun _ h => (by cases h)⟩
      have hid := List.find?_some
        (p := fun a : AgentUpdateAttempt => decide (a.agentId = id)) ha
      exact ⟨body, by rw [of_decide_eq_true hid]; rfl⟩

theorem txnSound_counted {now : Int} (h : TxnSound agentId confirmed x)
    (hnone : x.writes = none) :
    TxnSound agentId confirmed (counted s x now) := by
  have hplain : ∀ {y : Txn}, y.request = x.request → y.attempt = x.attempt →
      (∀ w, y.writes = some w → w.attempts = [] ∧ w.outcome = none) →
        TxnSound agentId confirmed y := by
    intro y hrequest hattempt hw
    refine ⟨fun w h a ha => ?_, ?_, ?_, fun w h a new hout => ?_⟩
    · rw [(hw w h).1] at ha
      exact absurd ha List.not_mem_nil
    · rw [hrequest]
      exact h.told
    · rw [hattempt, hrequest]
      exact h.read
    · rw [(hw w h).2] at hout
      cases hout
  unfold counted
  split
  · next id body hrequest =>
    split
    · refine hplain rfl rfl fun w hw => ?_
      cases hw
      exact ⟨rfl, rfl⟩
    · next a hattempt =>
      refine ⟨fun w hw b hb => ?_, h.told, h.read, fun w hw b new hout hid => ?_⟩
      · cases hw
        exact absurd hb List.not_mem_nil
      · cases hw
        cases hout
        obtain ⟨body', hread⟩ := h.read _ hattempt
        have htold := h.told body' (by rw [← hid]; exact hread)
        rw [hrequest] at hread
        cases hread
        exact htold
  · split
    · refine hplain rfl rfl fun w hw => ?_
      cases hw
      exact ⟨rfl, rfl⟩
    · refine hplain rfl rfl fun w hw => ?_
      rw [hnone] at hw
      cases hw
  · split
    · refine hplain rfl rfl fun w hw => ?_
      cases hw
      exact ⟨rfl, rfl⟩
    · refine hplain rfl rfl fun w hw => ?_
      cases hw
      exact ⟨rfl, rfl⟩
  · exact h

theorem status_of_mem_newAttempts {r : AgentUpdateRelease} {now : Int}
    {ids : List String} {agents : List UpdateAgent} {a : AgentUpdateAttempt}
    (h : a ∈ List.zipWith (newAttempt ops r now) ids agents) :
    a.status = .dispatched := by
  induction ids generalizing agents with
  | nil => exact absurd h List.not_mem_nil
  | cons id ids ih =>
      cases agents with
      | nil => exact absurd h List.not_mem_nil
      | cons b agents =>
          rcases List.mem_cons.mp h with rfl | hrest
          · rfl
          · exact ih hrest

theorem txnSound_target {w : Writes} (h : TxnSound agentId confirmed x)
    (hadded : ∀ a ∈ w.attempts, a.status = .dispatched)
    (houtcome : w.outcome = none) :
    TxnSound agentId confirmed { x with writes := some w } where
  added v hv := by
    cases hv
    exact hadded
  told := h.told
  read := h.read
  changed v hv a new hout := by
    cases hv
    rw [houtcome] at hout
    cases hout

/-- What a commit makes of an attempt `b`: it stays, as a report of its own
status leaves it, or it takes on the outcome. -/
structure Follows (outcome : Option (AgentUpdateAttempt × AgentUpdateAttempt))
    (b a : AgentUpdateAttempt) : Prop where
  id : a.agentId = b.agentId
  status : (a.status = b.status ∧ ∀ read new, outcome = some (read, new) →
      read.agentId = b.agentId → new.status = read.status) ∨
    ∃ read new, outcome = some (read, new) ∧ read.agentId = b.agentId ∧
      a.status = new.status

theorem follows_edit {read new b : AgentUpdateAttempt} :
    Follows (some (read, new)) b
      (if b.agentId = read.agentId then attemptEdit read new b else b) := by
  split
  · next hid =>
    refine ⟨rfl, ?_⟩
    have hstatus : (attemptEdit read new b).status =
        written (decide (new.status = read.status)) new.status b.status := rfl
    rw [hstatus]
    by_cases hsame : new.status = read.status
    · rw [decide_eq_true hsame]
      refine .inl ⟨rfl, ?_⟩
      rintro _ _ ⟨⟩ -
      exact hsame
    · rw [decide_eq_false hsame]
      exact .inr ⟨read, new, rfl, hid.symm, rfl⟩
  · next hid =>
    refine ⟨rfl, .inl ⟨rfl, ?_⟩⟩
    rintro _ _ ⟨⟩ hread
    exact absurd hread.symm hid

theorem mem_withOutcome {attempts : List AgentUpdateAttempt}
    {outcome : Option (AgentUpdateAttempt × AgentUpdateAttempt)}
    {a : AgentUpdateAttempt} (h : a ∈ withOutcome attempts outcome) :
    ∃ b ∈ attempts, Follows outcome b a := by
  unfold withOutcome at h
  split at h
  · exact ⟨a, h, rfl, .inl ⟨rfl, fun _ _ h => (by cases h)⟩⟩
  · obtain ⟨b, hb, rfl⟩ := List.mem_map.mp h
    exact ⟨b, hb, follows_edit⟩

theorem exists_withOutcome {attempts : List AgentUpdateAttempt}
    (outcome : Option (AgentUpdateAttempt × AgentUpdateAttempt))
    {b : AgentUpdateAttempt} (hb : b ∈ attempts) :
    ∃ a ∈ withOutcome attempts outcome, Follows outcome b a := by
  cases outcome with
  | none => exact ⟨b, hb, rfl, .inl ⟨rfl, fun _ _ h => (by cases h)⟩⟩
  | some changed => exact ⟨_, List.mem_map_of_mem hb, follows_edit⟩

/-! ## Commits -/

theorem ServerSound.onward_commit {w : Writes}
    (h : ServerSound agentId confirmed s) (hx : s.txns.Has t x)
    (hw : x.writes = some w) :
    Onward agentId s (committed s t x w) := by
  constructor
  · rintro ⟨b, hb, hid⟩
    obtain ⟨a, ha, hfollows⟩ := exists_withOutcome w.outcome hb
    exact ⟨a, List.mem_append_right _ ha, hfollows.id.trans hid⟩
  · rintro ⟨b, hb, hid, hstatus⟩
    obtain ⟨a, ha, hfollows⟩ := exists_withOutcome w.outcome hb
    refine ⟨a, List.mem_append_right _ ha, hfollows.id.trans hid, ?_⟩
    rcases hfollows.status with ⟨hsame, -⟩ | ⟨read, new, hout, hread, hnew⟩
    · rw [hsame]
      exact hstatus
    · rw [hnew]
      exact ((h.txns t x hx).changed w hw read new hout
        (hread.trans hid)).ne_dispatched

theorem ServerSound.commit {w : Writes} (h : ServerSound agentId confirmed s)
    (hx : s.txns.Has t x) (hw : x.writes = some w)
    (hunique : unique s w = true) :
    ServerSound agentId confirmed (committed s t x w) where
  attempts := by
    have hnodup := of_decide_eq_true hunique
    rw [List.map_append] at hnodup
    show ((w.attempts ++ withOutcome s.attempts w.outcome).map _).Nodup
    rw [List.map_append, map_withOutcome]
    exact hnodup
  rows a ha hid := by
    rcases List.mem_append.mp ha with hnew | hold
    · exact .inl ((h.txns t x hx).added w hw a hnew)
    · obtain ⟨b, hb, hfollows⟩ := mem_withOutcome hold
      have hbid := hfollows.id.symm.trans hid
      rcases hfollows.status with ⟨hsame, -⟩ | ⟨read, new, hout, hread, hnew⟩
      · rw [hsame]
        exact h.rows b hb hbid
      · rw [hnew]
        exact .inr ((h.txns t x hx).changed w hw read new hout
          (hread.trans hbid))
  txns u y hy := h.txns u y (Open.has_close.mp hy).1

/-! ## Actions of the server -/

theorem ServerSound.put {y : Txn} (h : ServerSound agentId confirmed s)
    (hy : TxnSound agentId confirmed y) :
    ServerSound agentId confirmed { s with txns := s.txns.put t y } where
  attempts := h.attempts
  rows := h.rows
  txns u z hz := by
    rcases Open.has_put.mp hz with ⟨_, rfl⟩ | ⟨hold, _⟩
    · exact hy
    · exact h.txns u z hold

/-- Where the endpoint reports, it is an outcome. -/
def Tells (agentId : String) (confirmed : Bool) (a : Action) : Prop :=
  ∀ t now body, a = .begin t now (.report agentId body) →
    Told confirmed body.status

theorem tells_of_not_own {a : Action} (h : ownReport agentId a = false) :
    Tells agentId confirmed a := by
  rintro t now body rfl
  rw [ownReport, decide_eq_false_iff_not] at h
  exact absurd rfl h

theorem ServerSound.step {a : Action} (h : ServerSound agentId confirmed s)
    (htells : Tells agentId confirmed a) (henabled : enabled ops s a = true) :
    ServerSound agentId confirmed (next ops s a) ∧
      Onward agentId s (next ops s a) := by
  cases a with
  | fleet agents => exact ⟨⟨h.attempts, h.rows, h.txns⟩, .of_eq rfl⟩
  | begin t now request =>
      rw [next]
      split
      · exact ⟨h, .refl⟩
      · refine ⟨h.put (txnSound_opened ?_), .of_eq rfl⟩
        rintro body rfl
        exact htells t now body rfl
  | count t now =>
      rw [next]
      split
      · exact ⟨h, .refl⟩
      · next x hx =>
        simp only [enabled, hx, Bool.and_eq_true,
          Option.isNone_iff_eq_none] at henabled
        exact ⟨h.put (txnSound_counted (h.txns t x (Open.has_of_get hx))
          henabled.1), .of_eq rfl⟩
  | target t now ids =>
      rw [next]
      split
      · exact ⟨h, .refl⟩
      · next x hx =>
        split
        · refine ⟨h.put (txnSound_target (h.txns t x (Open.has_of_get hx)) ?_
            rfl), .of_eq rfl⟩
          exact fun a ha => status_of_mem_newAttempts ha
        · exact ⟨h, .refl⟩
  | commit t =>
      rw [next]
      split
      · exact ⟨h, .refl⟩
      · next x hx =>
        split
        · exact ⟨h, .refl⟩
        · next w hw =>
          simp only [enabled, hx, hw] at henabled
          have hhas := Open.has_of_get hx
          exact ⟨h.commit hhas hw henabled, h.onward_commit hhas hw⟩
  | abort t =>
      refine ⟨⟨h.attempts, h.rows, fun u y hy => ?_⟩, .of_eq rfl⟩
      exact h.txns u y (Open.has_close.mp hy).1

/-- What the server does keeps it sound and takes nothing back. -/
theorem ServerSound.run {acts : List Action}
    (h : ServerSound agentId confirmed s)
    (htells : ∀ a ∈ acts, Tells agentId confirmed a)
    (hruns : (system ops).runs s acts = true) :
    ServerSound agentId confirmed ((system ops).run s acts) ∧
      Onward agentId s ((system ops).run s acts) := by
  have hstep : ∀ u a, ServerSound agentId confirmed u ∧ Onward agentId s u →
      (system ops).enabled u a = true → Tells agentId confirmed a →
        ServerSound agentId confirmed ((system ops).next u a) ∧
          Onward agentId s ((system ops).next u a) := by
    intro u a hu henabled htold
    obtain ⟨hsound, honward⟩ := hu.1.step htold henabled
    exact ⟨hsound, hu.2.trans honward⟩
  exact System.invariant_run hstep ⟨h, .refl⟩ hruns
    (System.each_of_forall fun a ha _ => htells a ha)

/-! ## Reports -/

/-- The endpoint's report is under way as number `t`. -/
structure UnderWay (agentId : String) (body : SelfUpdateReport)
    (a : AgentUpdateAttempt) (t : Nat) (s : State) (x : Txn) : Prop where
  here : s.txns.get t = some x
  request : x.request = .report agentId body
  attempt : x.attempt = some a
  writes : ∀ w, x.writes = some w →
    ∃ now, w.outcome = some (a, Server.Rollouts.reported a body now)

/-- It stays so until it is committed. -/
theorem UnderWay.step {body : SelfUpdateReport} {a : AgentUpdateAttempt}
    {act : Action} (h : UnderWay agentId body a t s x)
    (henabled : enabled ops s act = true) (hsettles : settles t act = false) :
    ∃ y, UnderWay agentId body a t (next ops s act) y := by
  have hkept : ∀ {s'}, s'.txns.get t = s.txns.get t →
      ∃ y, UnderWay agentId body a t s' y :=
    fun htxns => ⟨x, htxns.trans h.here, h.request, h.attempt, h.writes⟩
  cases act with
  | fleet agents => exact hkept rfl
  | begin u now request =>
      rw [next]
      split
      · exact hkept rfl
      · refine hkept (Open.get_put_of_ne ?_)
        rintro rfl
        rw [enabled, h.here] at henabled
        cases henabled
  | count u now =>
      by_cases hu : u = t
      · subst hu
        rw [next, h.here]
        refine ⟨counted s x now, Open.get_put, ?_, ?_, fun w hw => ?_⟩
        · simp only [counted, h.request, h.attempt]
        · simp only [counted, h.request, h.attempt]
        · simp only [counted, h.request, h.attempt] at hw
          cases hw
          exact ⟨now, rfl⟩
      · rw [next]
        split
        · exact hkept rfl
        · exact hkept (Open.get_put_of_ne (Ne.symm hu))
  | target u now ids =>
      by_cases hu : u = t
      · subst hu
        simp only [enabled, h.here, h.request] at henabled
        cases henabled
      · rw [next]
        split
        · exact hkept rfl
        · split
          · exact hkept (Open.get_put_of_ne (Ne.symm hu))
          · exact hkept rfl
  | commit u =>
      have hu : u ≠ t := of_decide_eq_false hsettles
      rw [next]
      split
      · exact hkept rfl
      · split
        · exact hkept rfl
        · exact hkept (Open.get_close_of_ne hu.symm)
  | abort u =>
      have hu : u ≠ t := of_decide_eq_false hsettles
      exact hkept (Open.get_close_of_ne hu.symm)

theorem UnderWay.run {body : SelfUpdateReport} {a : AgentUpdateAttempt}
    {acts : List Action} (h : UnderWay agentId body a t s x)
    (hacts : ∀ act ∈ acts, settles t act = false)
    (hruns : (system ops).runs s acts = true) :
    ∃ y, UnderWay agentId body a t ((system ops).run s acts) y := by
  have hstep : ∀ u act, (∃ y, UnderWay agentId body a t u y) →
      (system ops).enabled u act = true → settles t act = false →
        ∃ y, UnderWay agentId body a t ((system ops).next u act) y :=
    fun u act ⟨y, hy⟩ henabled hsettles => hy.step henabled hsettles
  exact System.invariant_run hstep ⟨x, h⟩ hruns
    (System.each_of_forall fun act hact _ => hacts act hact)

/-- Committing it gives the attempt the reported status. -/
theorem UnderWay.records {body : SelfUpdateReport} {a : AgentUpdateAttempt}
    (h : UnderWay agentId body a t s x) (htold : Told confirmed body.status)
    (hid : a.agentId = agentId) (hstatus : a.status = .dispatched)
    (hattempted : Attempted agentId s)
    (henabled : enabled ops s (.commit t) = true) :
    Recorded agentId (next ops s (.commit t)) := by
  simp only [enabled, h.here] at henabled
  split at henabled
  · next w hw =>
    obtain ⟨now, hout⟩ := h.writes w hw
    obtain ⟨b, hb, hbid⟩ := hattempted
    obtain ⟨c, hc, hfollows⟩ := exists_withOutcome w.outcome hb
    simp only [next, h.here, hw]
    refine ⟨c, List.mem_append_right _ hc, hfollows.id.trans hbid, ?_⟩
    rcases hfollows.status with ⟨-, hsame⟩ | ⟨read, new, hout', -, hnew⟩
    · have heq := hsame _ _ hout (hid.trans hbid.symm)
      exact absurd (heq.trans hstatus) htold.ne_dispatched
    · rw [hout] at hout'
      cases hout'
      rw [hnew]
      exact htold.ne_dispatched
  · cases henabled

/-- The server is as sound as before, and the attempt has an outcome. -/
theorem ServerSound.reportCommitted {body : SelfUpdateReport}
    (h : ServerSound agentId confirmed s) (htold : Told confirmed body.status)
    (hattempted : Attempted agentId s)
    (hr : ReportCommitted ops agentId s body s') :
    ServerSound agentId confirmed s' ∧ Onward agentId s s' ∧
      Recorded agentId s' := by
  obtain ⟨t, now, acts, hacts, hruns, rfl⟩ := hr
  have htells : ∀ act ∈ Action.begin t now (.report agentId body) ::
      (acts ++ [.commit t]), Tells agentId confirmed act := by
    intro act hact
    rcases List.mem_cons.mp hact with rfl | hact
    · rintro _ _ _ ⟨⟩
      exact htold
    · rcases List.mem_append.mp hact with hact | hact
      · exact tells_of_not_own (hacts act hact).1
      · rw [List.mem_singleton.mp hact]
        rintro _ _ _ ⟨⟩
  obtain ⟨hsound, honward⟩ := h.run htells hruns
  refine ⟨hsound, honward, ?_⟩
  obtain ⟨a, ha⟩ : ∃ a, s.attempts.find?
      (fun a => decide (a.agentId = agentId)) = some a := by
    rw [← Option.isSome_iff_exists, List.find?_isSome]
    obtain ⟨a, ha, hid⟩ := hattempted
    exact ⟨a, ha, decide_eq_true hid⟩
  have hmem := List.mem_of_find?_eq_some ha
  have hid : a.agentId = agentId := of_decide_eq_true (List.find?_some
    (p := fun b : AgentUpdateAttempt => decide (b.agentId = agentId)) ha)
  by_cases hstatus : a.status = .dispatched
  · obtain ⟨hbegin, hrest⟩ := System.runs_cons.mp hruns
    obtain ⟨hmid, hlast⟩ := System.runs_append.mp hrest
    have hopened : UnderWay agentId body a t
        (next ops s (.begin t now (.report agentId body)))
        (opened s now (.report agentId body)) :=
      ⟨Open.get_put, rfl, ha, fun w hw => by cases hw⟩
    obtain ⟨x, hx⟩ := hopened.run (fun act hact => (hacts act hact).2) hmid
    have hfirst : enabled ops s (.begin t now (.report agentId body)) = true :=
      hbegin
    have hcommit : enabled ops ((system ops).run (next ops s
        (.begin t now (.report agentId body))) acts) (.commit t) = true :=
      (System.runs_cons.mp hlast).1
    have hbegun : ServerSound agentId confirmed
        (next ops s (.begin t now (.report agentId body))) ∧
        Onward agentId s (next ops s (.begin t now (.report agentId body))) :=
      h.step (htells _ List.mem_cons_self) hfirst
    have hmidway := hbegun.1.run
      (fun act hact => tells_of_not_own (hacts act hact).1) hmid
    rw [System.run_cons, System.run_append]
    exact hx.records htold hid hstatus
      (hmidway.2.attempted (hbegun.2.attempted hattempted)) hcommit
  · exact honward.recorded ⟨a, hmem, hid, hstatus⟩

theorem ServerSound.reportLost {body : SelfUpdateReport}
    (h : ServerSound agentId confirmed s) (htold : Told confirmed body.status)
    (hr : ReportLost ops agentId s body s') :
    ServerSound agentId confirmed s' ∧ Onward agentId s s' := by
  rcases hr with rfl | ⟨t, now, acts, hacts, hruns, rfl⟩
  · exact ⟨h, .refl⟩
  · refine h.run (fun act hact => ?_) hruns
    rcases List.mem_cons.mp hact with rfl | hact
    · rintro _ _ _ ⟨⟩
      exact htold
    · exact tells_of_not_own (hacts act hact)

theorem ServerSound.mono {confirmed' : Bool}
    (h : ServerSound agentId confirmed s)
    (hc : confirmed = true → confirmed' = true) :
    ServerSound agentId confirmed' s where
  attempts := h.attempts
  rows a ha hid := (h.rows a ha hid).imp id fun htold => htold.mono hc
  txns t x hx :=
    { added := (h.txns t x hx).added
      told := fun body hbody => ((h.txns t x hx).told body hbody).mono hc
      read := (h.txns t x hx).read
      changed := fun w hw a new hout hid =>
        ((h.txns t x hx).changed w hw a new hout hid).mono hc }

end Server

/-! ## The journal on the disk -/

def KeepsJournal : UpdateOp → Prop
  | .saveJournal _ => False
  | .clearJournal => False
  | _ => True

theorem journal_of_does {sha256 : Bytes → String} {w w' : UpdateWorld}
    {o : UpdateOp} {a : o.Ans} (ho : KeepsJournal o)
    (h : updateDoes sha256 w o a w') : w'.disk.journal = w.disk.journal := by
  cases o with
  | saveJournal journal => exact ho.elim
  | clearJournal => exact ho.elim
  | loadJournal => rw [h.2]
  | loadPrevious => rw [h.2]
  | fileDigest path => rw [h.2]
  | savePrevious value =>
      rcases h with rfl | ⟨-, rfl | rfl⟩
      · rfl
      · rfl
      · rfl
  | download url sizeBytes =>
      match a, h with
      | .failed none, h => rw [h]
      | .failed (some path), ⟨_, content, h⟩ => rw [h]; rfl
      | .done path size digest, ⟨_, content, _, _, h⟩ => rw [h]; rfl
  | copyFile src dest =>
      match a, h with
      | some d, ⟨content, _, _, h⟩ => rw [h]; rfl
      | none, .inl h => rw [h]
      | none, .inr ⟨content, part, _, _, h⟩ => rw [h]; rfl
  | rename src dest =>
      match a, h with
      | .done, ⟨content, _, h⟩ => rw [h]; rfl
      | .missing, ⟨_, h⟩ => rw [h]
      | .failed, h => rw [show w' = w from h]
  | remove path =>
      rcases h with rfl | rfl
      · rfl
      · rfl
  | removeStaging => obtain ⟨files, -, rfl⟩ := h; rfl
  | pruneDisplaced => obtain ⟨files, -, rfl⟩ := h; rfl
  | _ => rw [show w' = _ from h]

theorem journal_of_torn {w w' : UpdateWorld} {o : UpdateOp}
    (ho : KeepsJournal o) (h : updateTorn w o w') :
    w'.disk.journal = w.disk.journal := by
  cases o with
  | saveJournal journal => exact ho.elim
  | clearJournal => exact ho.elim
  | savePrevious value =>
      rcases h with rfl | rfl
      · rfl
      · rfl
  | download url sizeBytes => obtain ⟨path, content, _, rfl⟩ := h; rfl
  | copyFile src dest => obtain ⟨content, part, _, _, rfl⟩ := h; rfl
  | rename src dest => obtain ⟨content, _, rfl⟩ := h; rfl
  | remove path => rw [show w' = _ from h]; rfl
  | removeStaging => obtain ⟨files, -, rfl⟩ := h; rfl
  | pruneDisplaced => obtain ⟨files, -, rfl⟩ := h; rfl
  | _ => exact h.elim

/-! ## The endpoint and its server -/

section Endpoint

variable {sha256 : Bytes → String} {ops : UpdateOps} {r : AgentUpdateRelease}
  {agentId : String} {w v u : AccountWorld}

/-- An attempt whose command has been taken up or is over is there; once
journalled, its outcome is recorded or on the disk. -/
structure AccountSound (r : AgentUpdateRelease) (agentId : String)
    (w : AccountWorld) : Prop where
  server : ServerSound agentId w.confirmed w.server
  attempted : w.stage ≠ .waiting → Attempted agentId w.server
  kept : w.stage = .journalled → Recorded agentId w.server ∨
    ∃ journal, w.endpoint.disk.journal = .found journal ∧
      OfRelease r journal.releaseID
  held : ∀ journal, w.endpoint.disk.journal = .found journal →
    OfRelease r journal.releaseID → w.stage = .journalled ∧
      (journal.state = .committed → w.confirmed = true)

/-- What an action takes back only at a start. -/
structure Ahead (agentId : String) (w v : AccountWorld) : Prop where
  onward : Onward agentId w.server v.server
  begun : w.stage ≠ .waiting → v.stage ≠ .waiting
  journalled : w.stage = .journalled → v.stage = .journalled
  confirmed : w.confirmed = true → v.confirmed = true
  missed : w.missed = true → v.missed = true
  due : v.due = w.due

theorem Ahead.refl : Ahead agentId w w :=
  ⟨.refl, fun h => h, fun h => h, fun h => h, fun h => h, rfl⟩

theorem Ahead.trans (h : Ahead agentId w v) (h' : Ahead agentId v u) :
    Ahead agentId w u :=
  ⟨h.onward.trans h'.onward, fun hw => h'.begun (h.begun hw),
    fun hw => h'.journalled (h.journalled hw),
    fun hw => h'.confirmed (h.confirmed hw), fun hw => h'.missed (h.missed hw),
    h'.due.trans h.due⟩

/-- Sound, and ahead of where it was. -/
def Steps (r : AgentUpdateRelease) (agentId : String) (w v : AccountWorld) :
    Prop :=
  AccountSound r agentId w → AccountSound r agentId v ∧ Ahead agentId w v

theorem Steps.refl : Steps r agentId w w := fun h => ⟨h, .refl⟩

theorem Steps.trans (h : Steps r agentId w v) (h' : Steps r agentId v u) :
    Steps r agentId w u := by
  intro hw
  obtain ⟨hv, hahead⟩ := h hw
  obtain ⟨hu, hahead'⟩ := h' hv
  exact ⟨hu, hahead.trans hahead'⟩

theorem AccountSound.of_same (h : AccountSound r agentId w)
    (hserver : v.server = w.server) (hstage : v.stage = w.stage)
    (hconfirmed : v.confirmed = w.confirmed)
    (hjournal : v.endpoint.disk.journal = w.endpoint.disk.journal) :
    AccountSound r agentId v where
  server := by
    rw [hserver, hconfirmed]
    exact h.server
  attempted := by
    rw [hserver, hstage]
    exact h.attempted
  kept := by
    rw [hserver, hstage, hjournal]
    exact h.kept
  held := by
    rw [hstage, hjournal, hconfirmed]
    exact h.held

/-- The server goes on, and the endpoint stays as it is. -/
theorem AccountSound.serve {s : State} (h : AccountSound r agentId w)
    (hsound : ServerSound agentId w.confirmed s)
    (honward : Onward agentId w.server s) :
    AccountSound r agentId { w with server := s } where
  server := hsound
  attempted hstage := honward.attempted (h.attempted hstage)
  kept hstage := (h.kept hstage).imp honward.recorded id
  held := h.held

theorem steps_around (h : Around ops agentId w v) : Steps r agentId w v := by
  intro hw
  obtain ⟨s, ⟨acts, hacts, hruns, rfl⟩, hv⟩ := h
  obtain ⟨hsound, honward⟩ := hw.server.run
    (fun a ha => tells_of_not_own (hacts a ha)) hruns
  rcases hv with rfl | ⟨hwaiting, ⟨commandID, a, ha, hid, -⟩, rfl⟩
  · exact ⟨hw.serve hsound honward,
      ⟨honward, fun h => h, fun h => h, fun h => h, fun h => h, rfl⟩⟩
  · refine ⟨⟨hsound, fun _ => ⟨a, ha, hid⟩, nofun, fun journal hj hr => ?_⟩,
      ⟨honward, fun _ => nofun, fun h => ?_, fun h => h, fun h => h, rfl⟩⟩
    · exact absurd (hwaiting.symm.trans (hw.held journal hj hr).1) nofun
    · exact absurd (hwaiting.symm.trans h) nofun

/-! ## Actions of the endpoint -/

/-- What the updater heeds: it saves a journal of the release only once the
command has come, and reports no outcome of it but what it has journalled. -/
def Guard (r : AgentUpdateRelease) (w : AccountWorld) : UpdateOp → Prop
  | .saveJournal journal => OfRelease r journal.releaseID → w.stage ≠ .waiting
  | .report outcome => OfRelease r outcome.releaseID →
    w.stage = .journalled ∧
      ∃ status, reportStatus outcome.status = some status ∧
        Told w.confirmed status
  | _ => True

theorem Guard.ahead {o : UpdateOp} (h : Guard r w o) (hv : Ahead agentId w v) :
    Guard r v o := by
  cases o with
  | saveJournal journal => exact fun hr => hv.begun (h hr)
  | report outcome =>
      intro hr
      obtain ⟨hstage, status, hstatus, htold⟩ := h hr
      exact ⟨hv.journalled hstage, status, hstatus, htold.mono hv.confirmed⟩
  | _ => trivial

theorem status_of_selfUpdateReportIn {outcome : UpdateOutcome}
    {body : SelfUpdateReport} (h : selfUpdateReportIn outcome = some body) :
    reportStatus outcome.status = some body.status := by
  unfold selfUpdateReportIn at h
  split at h
  · cases h
  · next status hstatus =>
    split at h
    · cases h
      exact hstatus
    · cases h

/-- The disk changes, the journal does not. -/
theorem steps_endpoint {after : UpdateWorld}
    (hjournal : after.disk.journal = w.endpoint.disk.journal) :
    Steps r agentId w { w with endpoint := after } :=
  fun hw => ⟨hw.of_same rfl rfl rfl hjournal,
    ⟨.refl, fun h => h, fun h => h, fun h => h, fun h => h, rfl⟩⟩

theorem steps_noteMissed (missed : Bool) :
    Steps r agentId w (noteMissed w missed) := by
  intro hw
  refine ⟨hw.of_same rfl rfl rfl rfl,
    ⟨.refl, fun h => h, fun h => h, fun h => h, fun h => ?_, rfl⟩⟩
  rw [noteMissed, h]
  rfl

/-- The journal is replaced, but not before its outcome is recorded. -/
theorem steps_setJournal {loaded : Loaded UpdateJournal}
    (hspared : ¬ Pending r agentId w)
    (hother : ∀ journal, loaded = .found journal →
      ¬ OfRelease r journal.releaseID) :
    Steps r agentId w
      { w with endpoint := w.endpoint.setJournal loaded } := by
  refine fun hw => ⟨⟨hw.server, hw.attempted, fun hstage => .inl ?_, ?_⟩,
    ⟨.refl, fun h => h, fun h => h, fun h => h, fun h => h, rfl⟩⟩
  · rcases hw.kept hstage with hrecorded | ⟨journal, hj, hr⟩
    · exact hrecorded
    · by_contra hnot
      exact hspared ⟨journal, hj, hr, hnot⟩
  · exact fun journal hj hr => absurd hr (hother journal hj)

theorem steps_noteJournal {after : UpdateWorld} {journal : UpdateJournal}
    (hguard : Guard r w (.saveJournal journal))
    (hspared : Spares r agentId w (.saveJournal journal))
    (hafter : after = w.endpoint.setJournal (.found journal) ∨
      after = w.endpoint) :
    Steps r agentId w (noteJournal r w after journal) := by
  intro hw
  rw [noteJournal]
  split
  · next hsaved =>
    obtain ⟨hj, hr⟩ := hsaved
    refine ⟨⟨hw.server.mono fun h => by rw [h]; rfl,
        fun _ => hw.attempted (hguard hr), fun _ => .inr ⟨journal, hj, hr⟩, ?_⟩,
      ⟨.refl, fun _ => nofun, fun _ => rfl, fun h => by rw [h]; rfl,
        fun h => h, rfl⟩⟩
    rintro other hother -
    obtain rfl : journal = other := by
      rw [show after.disk.journal = _ from hj] at hother
      cases hother
      rfl
    refine ⟨rfl, fun hstate => ?_⟩
    rw [decide_eq_true hstate, Bool.or_true]
  · next hnot =>
    rcases hafter with rfl | rfl
    · have hr : ¬ OfRelease r journal.releaseID := fun hr => hnot ⟨rfl, hr⟩
      refine steps_setJournal (fun hp => hr (hspared hp)) ?_ hw
      rintro other hother
      cases hother
      exact hr
    · exact steps_endpoint rfl hw

theorem told_of_guard {outcome : UpdateOutcome} {body : SelfUpdateReport}
    (h : Guard r w (.report outcome)) (hr : OfRelease r outcome.releaseID)
    (hbody : selfUpdateReportIn outcome = some body) :
    w.stage = .journalled ∧ Told w.confirmed body.status := by
  obtain ⟨hstage, status, hstatus, htold⟩ := h hr
  rw [status_of_selfUpdateReportIn hbody] at hstatus
  cases hstatus
  exact ⟨hstage, htold⟩

theorem AccountSound.attempted_of_journalled (hw : AccountSound r agentId w)
    (h : w.stage = .journalled) : Attempted agentId w.server :=
  hw.attempted (by rw [h]; nofun)

theorem AccountSound.reportCommitted {outcome : UpdateOutcome}
    {body : SelfUpdateReport} {s : State} (hw : AccountSound r agentId w)
    (hguard : Guard r w (.report outcome))
    (hr : OfRelease r outcome.releaseID)
    (hbody : selfUpdateReportIn outcome = some body)
    (hs : ReportCommitted ops agentId w.server body s) :
    AccountSound r agentId { w with server := s } ∧
      Ahead agentId w { w with server := s } ∧ Recorded agentId s := by
  obtain ⟨hstage, htold⟩ := told_of_guard hguard hr hbody
  obtain ⟨hsound, honward, hrecorded⟩ := hw.server.reportCommitted htold
    (hw.attempted_of_journalled hstage) hs
  exact ⟨hw.serve hsound honward,
    ⟨honward, fun h => h, fun h => h, fun h => h, fun h => h, rfl⟩, hrecorded⟩

theorem AccountSound.reportLost {outcome : UpdateOutcome}
    {body : SelfUpdateReport} {s : State} (hw : AccountSound r agentId w)
    (hguard : Guard r w (.report outcome))
    (hr : OfRelease r outcome.releaseID)
    (hbody : selfUpdateReportIn outcome = some body)
    (hs : ReportLost ops agentId w.server body s) :
    AccountSound r agentId { w with server := s } ∧
      Ahead agentId w { w with server := s } := by
  obtain ⟨hsound, honward⟩ :=
    hw.server.reportLost (told_of_guard hguard hr hbody).2 hs
  exact ⟨hw.serve hsound honward,
    ⟨honward, fun h => h, fun h => h, fun h => h, fun h => h, rfl⟩⟩

/-- What the answer of an action tells of the world it leaves. -/
def Learned (r : AgentUpdateRelease) (agentId : String) (w : AccountWorld) :
    (o : UpdateOp) → o.Ans → Prop
  | .takesUp _ cmd, _ => updatesTo r cmd = true → w.stage ≠ .waiting
  | .loadJournal, (loaded : Loaded UpdateJournal) =>
    (loaded = .failed ∧ w.missed = true) ∨
      loaded = w.endpoint.disk.journal
  | .saveJournal journal, (ok : Bool) =>
    (ok = false ∧ w.missed = true) ∨
      (ok = true ∧ w.endpoint.disk.journal = .found journal)
  | .savePrevious _, (ok : Bool) => ok = false → w.missed = true
  | .report outcome, (ok : Bool) => OfRelease r outcome.releaseID →
    (ok = false ∧ w.missed = true) ∨ (ok = true ∧ Recorded agentId w.server)
  | _, _ => True

theorem waiting_of_updatesTo {opts : UpdateOptions}
    {cmd : Agent.SelfUpdate.UpdateCommand}
    (h : TakenInOrder r agentId w (.takesUp opts cmd))
    (hcmd : updatesTo r cmd = true) :
    w.stage = .waiting ∧ Attempted agentId w.server := by
  cases cmd with
  | selfUpdate commandID payload =>
      cases payload with
      | none => cases hcmd
      | some p =>
          obtain ⟨hwaiting, a, ha, hid, -⟩ := h (of_decide_eq_true hcmd)
          exact ⟨hwaiting, a, ha, hid⟩
  | rollback commandID payload => cases hcmd

theorem AccountSound.takesUp {after : UpdateWorld}
    (hw : AccountSound r agentId w) (hwaiting : w.stage = .waiting)
    (hattempted : Attempted agentId w.server)
    (hjournal : after.disk.journal = w.endpoint.disk.journal) :
    AccountSound r agentId
      { w with
        endpoint := after
        stage := .takenUp } where
  server := hw.server
  attempted _ := hattempted
  kept := nofun
  held journal hj hr := by
    have hstage := (hw.held journal (hjournal.symm.trans hj) hr).1
    exact absurd (hwaiting.symm.trans hstage) nofun

/-- Any action but a start, in the clear world. -/
theorem AccountSound.does {o : UpdateOp} {a : o.Ans}
    (hw : AccountSound r agentId w) (ho : o ≠ .starts) (hg : Guard r w o)
    (hd : (clearWorld sha256 ops r agentId).does w o a u) :
    AccountSound r agentId u ∧ Ahead agentId w u ∧ Learned r agentId u o a := by
  obtain ⟨v, after, s, haround, hclear, horder, hdoes, hserver, rfl⟩ := hd
  obtain ⟨hv, hahead⟩ := steps_around haround hw
  have hg := hg.ahead hahead
  -- what is left once the server's own actions are behind
  suffices h : AccountSound r agentId { noted r v after o a with server := s } ∧
      Ahead agentId v { noted r v after o a with server := s } ∧
        Learned r agentId { noted r v after o a with server := s } o a from
    ⟨h.1, hahead.trans h.2.1, h.2.2⟩
  have hplain : KeepsJournal o → s = v.server →
      noted r v after o a = { v with endpoint := after } →
        Learned r agentId { v with endpoint := after } o a →
      AccountSound r agentId { noted r v after o a with server := s } ∧
        Ahead agentId v { noted r v after o a with server := s } ∧
          Learned r agentId { noted r v after o a with server := s } o a := by
    rintro hkeeps rfl hnoted hlearned
    rw [hnoted]
    have hsteps := @steps_endpoint r agentId v _
      (journal_of_does hkeeps hdoes) hv
    exact ⟨hsteps.1, hsteps.2, hlearned⟩
  cases o with
  | starts => exact absurd rfl ho
  | takesUp opts cmd =>
      by_cases hcmd : updatesTo r cmd = true
      · have hs : s = v.server := hserver
        subst hs
        obtain ⟨hwaiting, hdispatched⟩ := waiting_of_updatesTo horder hcmd
        have hnoted : noted r v after (.takesUp opts cmd) a =
            { v with
              endpoint := after
              stage := .takenUp } := by
          rw [noted, if_pos hcmd]
        rw [hnoted]
        have hjournal := journal_of_does (o := .takesUp opts cmd) trivial hdoes
        exact ⟨hv.takesUp hwaiting hdispatched hjournal,
          ⟨.refl, fun _ => nofun, fun h => absurd (hwaiting.symm.trans h) nofun,
            fun h => h, fun h => h, rfl⟩, fun _ => nofun⟩
      · refine hplain trivial hserver ?_ fun h => absurd h hcmd
        rw [noted, if_neg hcmd]
  | loadJournal =>
      have hs : s = v.server := hserver
      subst hs
      obtain ⟨hloaded, rfl⟩ := hdoes
      change Loaded UpdateJournal at a
      obtain ⟨hsound, hahead'⟩ := steps_noteMissed (decide (a = .failed)) hv
      refine ⟨hsound, hahead', ?_⟩
      rcases hloaded with hfailed | hfound
      · subst hfailed
        exact .inl ⟨rfl, Bool.or_true _⟩
      · exact .inr hfound
  | saveJournal journal =>
      have hs : s = v.server := hserver
      subst hs
      have hafter : after = v.endpoint.setJournal (.found journal) ∨
          after = v.endpoint := hdoes.imp id And.right
      obtain ⟨hsound, hahead'⟩ := (steps_noteJournal hg hclear hafter).trans
        (steps_noteMissed !a) hv
      have hnoted : { noted r v after (.saveJournal journal) a with
          server := v.server } =
            noteMissed (noteJournal r v after journal) (!a) := by
        simp only [noted, noteJournal]
        split
        · rfl
        · rfl
      rw [hnoted]
      refine ⟨hsound, hahead', ?_⟩
      cases a with
      | false => exact .inl ⟨rfl, Bool.or_true _⟩
      | true =>
          refine .inr ⟨rfl, ?_⟩
          rcases hdoes with rfl | ⟨hfalse, -⟩
          · show (noteJournal r v _ journal).endpoint.disk.journal = _
            rw [noteJournal]
            split
            · rfl
            · rfl
          · cases hfalse
  | clearJournal =>
      have hs : s = v.server := hserver
      subst hs
      rcases hdoes with rfl | ⟨-, rfl⟩
      · obtain ⟨hsound, hahead'⟩ := steps_setJournal (r := r) hclear
          (fun _ (h : Loaded.absent = .found _) => by cases h) hv
        exact ⟨hsound, hahead', trivial⟩
      · obtain ⟨hsound, hahead'⟩ := @steps_endpoint r
          agentId v _ rfl hv
        exact ⟨hsound, hahead', trivial⟩
  | savePrevious value =>
      have hs : s = v.server := hserver
      subst hs
      have hjournal := journal_of_does (o := .savePrevious value) trivial hdoes
      obtain ⟨hsound, hahead'⟩ := (steps_endpoint (r := r) hjournal).trans
        (steps_noteMissed !a) hv
      refine ⟨hsound, hahead', fun hfalse => ?_⟩
      show (v.missed || !a) = true
      rw [hfalse]
      exact Bool.or_true _
  | report outcome =>
      have hafter : after = v.endpoint := hdoes
      subst hafter
      have hmissed : ∀ {x : AccountWorld} {missed : Bool},
          AccountSound r agentId x → Ahead agentId v x →
          AccountSound r agentId (noteMissed x missed) ∧
            Ahead agentId v (noteMissed x missed) := by
        intro x missed hx hvx
        obtain ⟨hsound, hahead'⟩ := steps_noteMissed missed hx
        exact ⟨hsound, hvx.trans hahead'⟩
      by_cases hr : OfRelease r outcome.releaseID
      · simp only [serverDoes, if_pos hr] at hserver
        obtain ⟨body, hbody⟩ := Option.isSome_iff_exists.mp (hclear hr)
        simp only [hbody] at hserver
        rcases hserver with ⟨hok, hs⟩ | ⟨hok, hs⟩
        · obtain ⟨hsound, hahead', hrecorded⟩ :=
            hv.reportCommitted hg hr hbody hs
          obtain ⟨hsound, hahead'⟩ := hmissed hsound hahead'
          exact ⟨hsound, hahead', fun _ => .inr ⟨hok, hrecorded⟩⟩
        · obtain ⟨hsound, hahead'⟩ := hv.reportLost hg hr hbody hs
          obtain ⟨hsound, hahead'⟩ := hmissed hsound hahead'
          refine ⟨hsound, hahead', fun _ => .inl ⟨hok, ?_⟩⟩
          show (v.missed || (!a && (selfUpdateReportIn outcome).isSome)) = true
          rw [hok, hbody]
          exact Bool.or_true _
      · simp only [serverDoes, if_neg hr] at hserver
        subst hserver
        obtain ⟨hsound, hahead'⟩ := hmissed hv .refl
        exact ⟨hsound, hahead', fun h => absurd h hr⟩
  | _ => exact hplain trivial hserver rfl trivial

/-- A start: what is due by then has been journalled. -/
theorem AccountSound.starts {opts : UpdateOptions}
    (hw : AccountSound r agentId w)
    (hd : (clearWorld sha256 ops r agentId).does w .starts opts u) :
    AccountSound r agentId u ∧ opts.normalized.isSome = true ∧
      (u.due = true → u.stage = .journalled) := by
  obtain ⟨v, after, s, haround, ⟨hopts, hstage⟩, -, hdoes, hserver, rfl⟩ := hd
  have hv := (steps_around haround hw).1
  have hs : s = v.server := hserver
  have hafter : after = { v.endpoint with since := none } := hdoes
  subst hs hafter
  refine ⟨hv.of_same rfl rfl rfl rfl, hopts, fun hdue => ?_⟩
  exact hstage.resolve_left (of_decide_eq_true hdue)

/-- What a crash in the middle of an action leaves. -/
theorem AccountSound.torn {o : UpdateOp} (hw : AccountSound r agentId w)
    (hg : Guard r w o)
    (ht : (clearWorld sha256 ops r agentId).torn w o u) :
    AccountSound r agentId u ∧ Ahead agentId w u := by
  obtain ⟨v, haround, hclear, ht⟩ := ht
  obtain ⟨hv, hahead⟩ := steps_around haround hw
  have hg := hg.ahead hahead
  suffices h : AccountSound r agentId u ∧ Ahead agentId v u from
    ⟨h.1, hahead.trans h.2⟩
  have hplain : KeepsJournal o → (∃ after, updateTorn v.endpoint o after ∧
      u = { v with endpoint := after }) →
        AccountSound r agentId u ∧ Ahead agentId v u := by
    rintro hkeeps ⟨after, htorn, rfl⟩
    exact steps_endpoint (journal_of_torn hkeeps htorn) hv
  cases o with
  | saveJournal journal =>
      obtain ⟨after, htorn, rfl⟩ := ht
      exact steps_noteJournal hg hclear (.inl htorn) hv
  | clearJournal =>
      obtain ⟨after, htorn, rfl⟩ := ht
      obtain rfl : after = v.endpoint.setJournal .absent := htorn
      exact steps_setJournal hclear
        (fun _ (h : Loaded.absent = .found _) => by cases h) hv
  | report outcome =>
      obtain ⟨body, s, hr, hbody, hs, rfl⟩ := ht
      exact hv.reportLost hg hr hbody hs
  | _ => exact hplain trivial ht

/-! ## Programs of the endpoint -/

/-- Started in `w`, the program heeds the guard, keeps the two sound at every
step and ends in `Q`. -/
def Going (sha256 : Bytes → String) (ops : UpdateOps) (r : AgentUpdateRelease)
    (agentId : String) {α : Type} (Q : α → AccountWorld → Prop)
    (x : UpdateProg α) (w : AccountWorld) : Prop :=
  wp (clearWorld sha256 ops r agentId) (Guard r) (AccountSound r agentId) Q x w

variable {α β : Type} {Q : α → AccountWorld → Prop}

theorem going_act {o : UpdateOp} {f : o.Ans → UpdateProg α}
    (hw : AccountSound r agentId w) (ho : o ≠ .starts) (hg : Guard r w o)
    (hf : ∀ a v, AccountSound r agentId v → Ahead agentId w v →
      Learned r agentId v o a → Going sha256 ops r agentId Q (f a) v) :
    Going sha256 ops r agentId Q (act o >>= f) w := by
  refine wp_act.mpr ⟨hg, hw, fun v ht => (hw.torn hg ht).1, fun a v hd => ?_⟩
  obtain ⟨hv, hahead, hlearned⟩ := hw.does ho hg hd
  exact hf a v hv hahead hlearned

/-- Actions that neither start nor report, and save no journal but of
`releaseID`. -/
def Within (releaseID : String) : UpdateOp → Prop
  | .starts => False
  | .report _ => False
  | .saveJournal journal => journal.releaseID = releaseID
  | _ => True

/-- The command of `releaseID` has come, if it is the release's. -/
def Come (r : AgentUpdateRelease) (releaseID : String) (w : AccountWorld) :
    Prop :=
  OfRelease r releaseID → w.stage ≠ .waiting

theorem come_empty : Come r "" w := fun hr => absurd rfl hr.2

theorem Come.ahead {releaseID : String} (h : Come r releaseID w)
    (hv : Ahead agentId w v) : Come r releaseID v := fun hr => hv.begun (h hr)

theorem Within.guard {releaseID : String} {o : UpdateOp}
    (ho : Within releaseID o) (h : Come r releaseID w) : Guard r w o := by
  cases o with
  | saveJournal journal =>
      intro hr
      rw [show journal.releaseID = releaseID from ho] at hr
      exact h hr
  | report outcome => exact ho.elim
  | _ => trivial

/-- A program that stays within an attempt. -/
theorem within_steps {releaseID : String} {x : UpdateProg β}
    (hx : x.Uses (Within releaseID)) (hw : AccountSound r agentId w)
    (hcome : Come r releaseID w) :
    Going sha256 ops r agentId
      (fun _ v => AccountSound r agentId v ∧ Ahead agentId w v) x w := by
  have hx : Going sha256 ops r agentId
      (fun _ v => Come r releaseID w → Steps r agentId w v) x w := by
    refine wp_of_uses (R := fun u v => Come r releaseID u → Steps r agentId u v)
      hx (fun _ _ => .refl) ?_ (fun v h => (h hcome hw).1) ?_ ?_ ?_
    · intro u v v' h h' hu husound
      obtain ⟨hv, hahead⟩ := h hu husound
      exact Steps.trans (h hu) (h' (hu.ahead hahead)) husound
    · exact fun v o ho h => ho.guard (hcome.ahead (h hcome hw).2)
    · exact fun v o v' ho ht hv hsound => hsound.torn (ho.guard hv) ht
    · intro v o a v' ho hd hv hsound
      have hstarts : o ≠ .starts := by
        rintro rfl
        exact ho
      obtain ⟨hsound', hahead, -⟩ := hsound.does hstarts (ho.guard hv) hd
      exact ⟨hsound', hahead⟩
  exact wp_mono hx fun a v h => h hcome hw

/-- A part of a program that stays within an attempt. -/
theorem going_within {releaseID : String} {x : UpdateProg β}
    {f : β → UpdateProg α} (hx : x.Uses (Within releaseID))
    (hw : AccountSound r agentId w) (hcome : Come r releaseID w)
    (hf : ∀ a v, AccountSound r agentId v → Ahead agentId w v →
      Going sha256 ops r agentId Q (f a) v) :
    Going sha256 ops r agentId Q (x >>= f) w :=
  wp_seq (within_steps hx hw hcome) fun a v h => hf a v h.1 h.2

/-! ## What the programs do to the journal -/

theorem uses_act {P : UpdateOp → Prop} {o : UpdateOp} {f : o.Ans → UpdateProg α}
    (h : P o) (hf : ∀ a, (f a).Uses P) : (act o >>= f).Uses P := ⟨h, hf⟩

theorem uses_pure {P : UpdateOp → Prop} {a : α} :
    (pure a : UpdateProg α).Uses P := trivial

variable {releaseID : String} {onWindows : Bool}

theorem within_replaceRunningBinary {src dest : BuildFile} :
    (replaceRunningBinary onWindows src dest).Uses (Within releaseID) := by
  cases onWindows with
  | false => exact uses_act trivial fun _ => uses_pure
  | true =>
      refine uses_act trivial fun unixNano => ?_
      refine uses_act trivial fun displaced => ?_
      split
      · exact uses_pure
      · refine uses_act trivial fun installed => ?_
        split
        · exact uses_pure
        · split
          · exact uses_act trivial fun _ => uses_pure
          · exact uses_pure

theorem within_atomicReplace {src dest : BuildFile} :
    (atomicReplace onWindows src dest).Uses (Within releaseID) := by
  refine uses_act trivial fun mode => ?_
  split
  · exact uses_pure
  · exact within_replaceRunningBinary

theorem within_restoreBackup {backup : Option BuildFile}
    {expectedDigest : String} :
    (restoreBackup onWindows backup expectedDigest).Uses (Within releaseID) := by
  cases backup with
  | none => exact uses_pure
  | some path =>
      refine uses_act trivial fun actual => ?_
      split
      · exact uses_pure
      · split
        · exact uses_pure
        · refine uses_act trivial fun copied => ?_
          split
          · exact uses_act trivial fun _ => uses_pure
          · refine within_atomicReplace.bind fun replaced => ?_
            split
            · exact uses_pure
            · exact uses_act trivial fun _ => uses_pure

theorem within_requestRestart {journal : UpdateJournal} {res : UpdateResult}
    (hid : journal.releaseID = releaseID) :
    (requestRestart onWindows journal res).Uses (Within releaseID) := by
  refine uses_act trivial fun requested => ?_
  split
  · exact uses_pure
  · refine within_restoreBackup.bind fun restored => ?_
    split
    · exact uses_act hid fun _ => uses_pure
    · exact uses_act hid fun _ => uses_pure

theorem within_swapBuild {stagedPath : BuildFile} {journal : UpdateJournal}
    {res : UpdateResult} (hid : journal.releaseID = releaseID) :
    (swapBuild onWindows stagedPath journal res).Uses (Within releaseID) := by
  refine within_atomicReplace.bind fun replaced => ?_
  split
  · refine uses_act hid fun saved => ?_
    split
    · exact within_requestRestart hid
    · exact within_restoreBackup.bind fun _ => uses_pure
  · refine within_restoreBackup.bind fun _ => ?_
    refine uses_act trivial fun _ => ?_
    exact uses_act hid fun _ => uses_pure

theorem within_installStaged {stagedPath backup : BuildFile}
    {journal : UpdateJournal} {res : UpdateResult}
    (hid : journal.releaseID = releaseID) :
    (installStaged onWindows stagedPath journal backup res).Uses
      (Within releaseID) := by
  refine uses_act trivial fun backupDigest => ?_
  split
  · refine uses_act trivial fun _ => ?_
    exact uses_act hid fun _ => uses_pure
  · refine uses_act hid fun saved => ?_
    split
    · exact within_swapBuild hid
    · exact uses_act trivial fun _ => uses_pure

theorem within_checkSigner {p : UpdatePayload} {stagedPath : BuildFile} :
    (checkSigner p stagedPath).Uses (Within releaseID) := by
  rw [checkSigner]
  split
  · exact uses_pure
  · refine uses_act trivial fun signer => ?_
    split
    · exact uses_pure
    · exact uses_pure

theorem within_executeRollback {opts : UpdateOptions} {commandID : String}
    {payload : Option RollbackPayload} :
    (executeRollback onWindows opts commandID payload).Uses (Within "") := by
  cases payload with
  | none => exact uses_pure
  | some p =>
      simp only [executeRollback]
      split
      · exact uses_pure
      · have hload : loadPrevious.Uses (Within "") := by
          refine uses_act trivial fun loaded => ?_
          cases loaded with
          | found value =>
              simp only []
              split
              · exact uses_pure
              · exact uses_pure
          | failed => exact uses_pure
          | absent => exact uses_pure
        refine hload.bind fun previous => ?_
        split
        · exact uses_pure
        · exact uses_pure
        · refine within_restoreBackup.bind fun restored => ?_
          split
          · refine uses_act trivial fun started => ?_
            refine uses_act trivial fun deadline => ?_
            refine uses_act rfl fun saved => ?_
            split
            · refine uses_act trivial fun requested => ?_
              split
              · exact uses_pure
              · exact uses_pure
            · exact uses_pure
          · exact uses_pure

/-! ## Updates -/

/-- The ends of an update that leave no journal behind. -/
def refusals : List UpdateStatus :=
  [.invalid, .alreadyCurrent, .downgradeRefused, .channelMismatch,
    .platformMismatch, .updateInProgress, .downloadFailed, .tampered,
    .signatureMismatch, .stageFailed]

/-- An update that went on from `w` has been refused, or it is journalled. -/
structure Ends (r : AgentUpdateRelease) (agentId releaseID : String)
    (w : AccountWorld) (res : UpdateResult) (v : AccountWorld) : Prop where
  sound : AccountSound r agentId v
  ahead : Ahead agentId w v
  journalled : OfRelease r releaseID →
    res.status ∈ refusals ∨ v.stage = .journalled

variable {sameName : String → String} {opts : UpdateOptions}
  {commandID : String} {p : UpdatePayload} {res : UpdateResult}

theorem ends_of_mem (hv : AccountSound r agentId v)
    (hahead : Ahead agentId w v) (h : res.status ∈ refusals) :
    Going sha256 ops r agentId (Ends r agentId releaseID w)
      (pure res : UpdateProg UpdateResult) v :=
  ⟨hv, hahead, fun _ => .inl h⟩

/-- What was downloaded is discarded, and the update refused. -/
theorem ends_discard {path : BuildFile} (hv : AccountSound r agentId v)
    (hahead : Ahead agentId w v) (h : res.status ∈ refusals) :
    Going sha256 ops r agentId (Ends r agentId releaseID w)
      (removeFile path >>= fun _ => pure res) v :=
  going_act hv nofun trivial fun _ _ hu hvu _ =>
    ends_of_mem hu (hahead.trans hvu) h

theorem ends_stageAttempt {stagedPath : BuildFile}
    (hv : AccountSound r agentId v) (hahead : Ahead agentId w v)
    (hcome : Come r p.releaseID w) :
    Going sha256 ops r agentId (Ends r agentId p.releaseID w)
      (stageAttempt onWindows sameName opts commandID p stagedPath res) v := by
  refine going_act hv nofun trivial fun deadline v₁ h₁ ha₁ _ => ?_
  refine going_act h₁ nofun trivial fun started v₂ h₂ ha₂ _ => ?_
  have hahead₂ := (hahead.trans ha₁).trans ha₂
  refine going_act h₂ nofun (hcome.ahead hahead₂)
    fun saved v₃ h₃ ha₃ hsaved => ?_
  have hahead₃ := hahead₂.trans ha₃
  split
  · next htrue =>
    rcases hsaved with ⟨hfalse, -⟩ | ⟨-, hjournal⟩
    · exact absurd (htrue.symm.trans hfalse) nofun
    -- from here on the attempt is on the disk, whatever becomes of it
    refine wp_mono (within_steps (within_installStaged rfl) h₃
      (hcome.ahead hahead₃)) fun res u hu => ?_
    exact ⟨hu.1, hahead₃.trans hu.2,
      fun hr => .inr (hu.2.journalled (h₃.held _ hjournal hr).1)⟩
  · exact ends_discard h₃ hahead₃ (by simp [refusals, UpdateResult.fail])

theorem ends_stageArtifact (hv : AccountSound r agentId v)
    (hahead : Ahead agentId w v) (hcome : Come r p.releaseID w) :
    Going sha256 ops r agentId (Ends r agentId p.releaseID w)
      (stageArtifact onWindows sameName opts commandID p res) v := by
  refine going_act hv nofun trivial fun transfer v₁ h₁ ha₁ _ => ?_
  have hahead₁ := hahead.trans ha₁
  match transfer with
  | .failed none =>
      exact ends_of_mem h₁ hahead₁ (by simp [refusals, UpdateResult.fail])
  | .failed (some path) =>
      exact ends_discard h₁ hahead₁ (by simp [refusals, UpdateResult.fail])
  | .done path size digest =>
      simp only []
      split
      · exact ends_discard h₁ hahead₁ (by simp [refusals, UpdateResult.fail])
      · split
        · exact ends_discard h₁ hahead₁ (by simp [refusals, UpdateResult.fail])
        · refine going_within within_checkSigner h₁ (hcome.ahead hahead₁)
            fun signed v₂ h₂ ha₂ => ?_
          have hahead₂ := hahead₁.trans ha₂
          split
          · exact ends_stageAttempt h₂ hahead₂ hcome
          · exact ends_discard h₂ hahead₂
              (by simp [refusals, UpdateResult.fail])

/-- What is refused before the disk is looked at. -/
theorem status_of_refuseUpdate (h : refuseUpdate opts p = some res) :
    res.status ∈ refusals := by
  have hanti : ∀ {target current floor : Agent.Version} {res res' : UpdateResult},
      antiRollback target current floor res = some res' →
        res'.status ∈ refusals := by
    intro target current floor res res' h
    unfold antiRollback at h
    split at h
    · cases h
      simp [refusals, UpdateResult.succeed]
    · split at h
      · cases h
        simp [refusals, UpdateResult.fail]
      · split at h
        · cases h
          simp [refusals, UpdateResult.fail]
        · cases h
  unfold refuseUpdate at h
  split at h
  · cases h
    simp [refusals, UpdateResult.fail]
  · simp only [] at h
    split at h
    · cases h
      simp [refusals, UpdateResult.fail]
    · split at h
      · cases h
        simp [refusals, UpdateResult.fail]
      · split at h
        · exact hanti h
        · cases h

theorem ends_executeUpdate (hw : AccountSound r agentId w)
    (hcome : Come r p.releaseID w) :
    Going sha256 ops r agentId (Ends r agentId p.releaseID w)
      (executeUpdate onWindows sameName opts commandID (some p)) w := by
  have proceeds : ∀ {v}, AccountSound r agentId v → Ahead agentId w v →
      Going sha256 ops r agentId (Ends r agentId p.releaseID w)
        (executeUpdate.proceed onWindows sameName opts commandID p
          (updateResult opts p)) v := by
    intro v hv hahead
    refine going_act hv (by intro h; cases h) trivial fun made v₁ h₁ ha₁ _ => ?_
    split
    · exact ends_stageArtifact h₁ (hahead.trans ha₁) hcome
    · exact ends_of_mem h₁ (hahead.trans ha₁)
        (by simp [refusals, UpdateResult.fail])
  simp only [executeUpdate]
  split
  · next res hrefused =>
    exact ends_of_mem hw .refl (status_of_refuseUpdate hrefused)
  · refine going_act hw (by intro h; cases h) trivial
      fun existing v hv hahead _ => ?_
    split
    · exact ends_of_mem hv hahead (by simp [refusals, UpdateResult.fail])
    · split
      · exact ends_of_mem hv hahead (by simp [refusals, UpdateResult.fail])
      · exact proceeds hv hahead
    · exact proceeds hv hahead

/-- The release a command updates to. -/
def commandRelease : Agent.SelfUpdate.UpdateCommand → String
  | .selfUpdate _ (some p) => p.releaseID
  | _ => ""

theorem come_of_updatesTo {cmd : Agent.SelfUpdate.UpdateCommand}
    (h : updatesTo r cmd = true → w.stage ≠ .waiting) :
    Come r (commandRelease cmd) w := by
  intro hr
  cases cmd with
  | selfUpdate commandID payload =>
      cases payload with
      | none => exact absurd rfl hr.2
      | some p => exact h (decide_eq_true hr)
  | rollback commandID payload => exact absurd rfl hr.2

/-- However an update ends, unless it was refused it has been journalled. -/
theorem ends_execute {cmd : Agent.SelfUpdate.UpdateCommand}
    (hw : AccountSound r agentId w) (hcome : Come r (commandRelease cmd) w) :
    Going sha256 ops r agentId (Ends r agentId (commandRelease cmd) w)
      (execute onWindows sameName opts cmd) w := by
  rw [execute]
  split
  · exact ends_of_mem hw .refl (by simp [refusals, UpdateResult.fail])
  · cases cmd with
    | selfUpdate commandID payload =>
        cases payload with
        | none => exact ends_of_mem hw .refl (by simp [refusals, UpdateResult.fail])
        | some p => exact ends_executeUpdate hw hcome
    | rollback commandID payload =>
        refine wp_mono (within_steps within_executeRollback hw hcome)
          fun res v hv => ⟨hv.1, hv.2, fun hr => absurd rfl hr.2⟩

/-! ## Recovery at a start -/

/-- What was due when the endpoint started is recorded, or the start has missed
something. -/
def Caught (agentId : String) (w : AccountWorld) : Prop :=
  w.due = true → w.missed = true ∨ Recorded agentId w.server

theorem Caught.ahead (h : Caught agentId w) (hv : Ahead agentId w v) :
    Caught agentId v := by
  intro hdue
  rw [hv.due] at hdue
  exact (h hdue).imp hv.missed hv.onward.recorded

theorem caught_of_missed (h : w.missed = true) : Caught agentId w :=
  fun _ => .inl h

/-- No outcome of the release is on the disk. -/
theorem AccountSound.caught (hw : AccountSound r agentId w)
    (hdue : w.due = true → w.stage = .journalled)
    (hno : ∀ journal, w.endpoint.disk.journal = .found journal →
      ¬ OfRelease r journal.releaseID) : Caught agentId w := by
  intro h
  rcases hw.kept (hdue h) with hrecorded | ⟨journal, hj, hr⟩
  · exact .inr hrecorded
  · exact absurd hr (hno journal hj)

/-- The recovery is at a journal of `releaseID`. -/
structure At (r : AgentUpdateRelease) (agentId releaseID : String)
    (w : AccountWorld) : Prop where
  journalled : OfRelease r releaseID → w.stage = .journalled
  caught : ¬ OfRelease r releaseID → Caught agentId w

theorem At.ahead (h : At r agentId releaseID w) (hv : Ahead agentId w v) :
    At r agentId releaseID v :=
  ⟨fun hr => hv.journalled (h.journalled hr), fun hr => (h.caught hr).ahead hv⟩

theorem At.come (h : At r agentId releaseID w) : Come r releaseID w := by
  intro hr
  rw [h.journalled hr]
  nofun

/-- What a recovery comes to: an outcome that may be told, or nothing that was
due. -/
def Resolved (r : AgentUpdateRelease) (agentId : String) (ended : ResolveEnd)
    (w : AccountWorld) : Prop :=
  AccountSound r agentId w ∧
    match ended with
    | .outcome status journal => At r agentId journal.releaseID w ∧
      ∃ told, reportStatus status = some told ∧
        (OfRelease r journal.releaseID → Told w.confirmed told)
    | _ => Caught agentId w

theorem resolved_rolledBack {journal : UpdateJournal}
    (hw : AccountSound r agentId w) (hat : At r agentId journal.releaseID w) :
    Resolved r agentId (.outcome .rolledBack journal) w :=
  ⟨hw, hat, .rolledBack, rfl, fun _ => .inr (.inl rfl)⟩

theorem resolved_failed {journal : UpdateJournal}
    (hw : AccountSound r agentId w) (hat : At r agentId journal.releaseID w) :
    Resolved r agentId (.outcome .failed journal) w :=
  ⟨hw, hat, .failed, rfl, fun _ => .inl rfl⟩

theorem resolved_succeeded {journal : UpdateJournal}
    (hw : AccountSound r agentId w) (hat : At r agentId journal.releaseID w)
    (hconfirmed : OfRelease r journal.releaseID → w.confirmed = true) :
    Resolved r agentId (.outcome .succeeded journal) w :=
  ⟨hw, hat, .succeeded, rfl, fun hr => .inr (.inr ⟨rfl, hconfirmed hr⟩)⟩

/-- A save after which the recovery goes on only if it went through. -/
theorem going_saveJournal {journal : UpdateJournal} {f : Bool → UpdateProg α}
    (hw : AccountSound r agentId w) (hat : At r agentId journal.releaseID w)
    (hf : ∀ v, AccountSound r agentId v → Ahead agentId w v →
      v.endpoint.disk.journal = .found journal →
        Going sha256 ops r agentId Q (f true) v)
    (hfailed : ∀ v, AccountSound r agentId v → Ahead agentId w v →
      v.missed = true → Going sha256 ops r agentId Q (f false) v) :
    Going sha256 ops r agentId Q (saveJournal journal >>= f) w := by
  refine going_act hw nofun hat.come fun saved v hv hahead hsaved => ?_
  rcases hsaved with ⟨rfl, hmissed⟩ | ⟨rfl, hjournal⟩
  · exact hfailed v hv hahead hmissed
  · exact hf v hv hahead hjournal

theorem resolved_rollbackAttempt {journal : UpdateJournal} {reason : String}
    (hw : AccountSound r agentId w) (hat : At r agentId journal.releaseID w) :
    Going sha256 ops r agentId (Resolved r agentId)
      (rollbackAttempt onWindows journal reason) w := by
  refine going_within within_restoreBackup hw hat.come
    fun restored v hv hahead => ?_
  have hat := hat.ahead hahead
  split
  · refine going_saveJournal hv hat (fun u hu hvu _ => ?_)
      fun u hu _ hmissed => ⟨hu, caught_of_missed hmissed⟩
    exact going_act hu nofun trivial fun _ x hx hux _ =>
      resolved_rolledBack hx ((hat.ahead hvu).ahead hux)
  · refine going_act hv nofun hat.come fun _ u hu hvu _ => ?_
    exact resolved_failed hu (hat.ahead hvu)

theorem resolved_commitAttempt {journal : UpdateJournal}
    (hw : AccountSound r agentId w) (hat : At r agentId journal.releaseID w) :
    Going sha256 ops r agentId (Resolved r agentId)
      (commitAttempt journal) w := by
  have hprevious : ∀ value, Going sha256 ops r agentId
      (fun kept v => AccountSound r agentId v ∧ Ahead agentId w v ∧
        (kept = false → v.missed = true)) (savePrevious value) w := by
    intro value
    rw [savePrevious]
    split
    · exact ⟨hw, .refl, by intro h; cases h⟩
    · exact going_act (f := pure) hw (by intro h; cases h) trivial
        fun _ v hv hahead hmissed => ⟨hv, hahead, hmissed⟩
  refine wp_seq (hprevious _) fun kept v hkept => ?_
  obtain ⟨hv, hahead, hmissed⟩ := hkept
  have hat := hat.ahead hahead
  cases kept with
  | false => exact ⟨hv, caught_of_missed (hmissed rfl)⟩
  | true =>
      refine going_saveJournal hv hat (fun u hu hvu hjournal => ?_)
        fun u hu _ hmissed => ⟨hu, caught_of_missed hmissed⟩
      have hat := hat.ahead hvu
      refine going_act hu (by intro h; cases h) trivial fun _ x hx hux _ => ?_
      refine going_act hx (by intro h; cases h) trivial fun _ y hy hxy _ => ?_
      refine resolved_succeeded hy ((hat.ahead hux).ahead hxy) fun hr => ?_
      exact hxy.confirmed (hux.confirmed ((hu.held _ hjournal hr).2 rfl))

theorem within_deadlinePassed {deadline : Option Int} :
    (resolveInstalled.deadlinePassed deadline).Uses (Within releaseID) := by
  cases deadline with
  | none => exact uses_pure
  | some d => exact uses_act trivial fun _ => uses_pure

theorem resolved_resolveInstalled {journal : UpdateJournal}
    (hw : AccountSound r agentId w) (hat : At r agentId journal.releaseID w) :
    Going sha256 ops r agentId (Resolved r agentId)
      (resolveInstalled onWindows opts journal) w := by
  refine going_saveJournal hw hat (fun v hv hahead _ => ?_)
    fun v hv _ hmissed => ⟨hv, caught_of_missed hmissed⟩
  have hat := hat.ahead hahead
  simp only [Bool.true_eq_false, if_false]
  split
  · exact resolved_rollbackAttempt hv hat
  split
  · exact resolved_rollbackAttempt hv hat
  split
  · exact resolved_rollbackAttempt hv hat
  refine going_within within_deadlinePassed hv hat.come fun late u hu hvu => ?_
  have hat := hat.ahead hvu
  split
  · exact resolved_rollbackAttempt hu hat
  refine going_act hu nofun trivial fun healthy x hx hux _ => ?_
  have hat := hat.ahead hux
  split
  · exact resolved_commitAttempt hx hat
  · exact resolved_rollbackAttempt hx hat

theorem within_discardStaged {stagedPath : Option BuildFile} :
    (discardStaged stagedPath).Uses (Within releaseID) := by
  cases stagedPath with
  | none => exact uses_pure
  | some path => exact uses_act trivial fun _ => uses_pure

/-- Whatever journal a start finds of the release, it comes to an outcome of
it, or misses something. -/
theorem resolved_resolve (hw : AccountSound r agentId w)
    (hdue : w.due = true → w.stage = .journalled) :
    Going sha256 ops r agentId (Resolved r agentId)
      (resolve onWindows opts) w := by
  refine going_act hw nofun trivial fun loaded v hv hahead hloaded => ?_
  have hdue : v.due = true → v.stage = .journalled := by
    intro h
    rw [hahead.due] at h
    exact hahead.journalled (hdue h)
  match loaded with
  | .failed =>
      rcases hloaded with ⟨-, hmissed⟩ | hsame
      · refine going_act hv nofun trivial fun _ u hu hvu _ => ?_
        exact ⟨hu, caught_of_missed (hvu.missed hmissed)⟩
      · refine going_act hv nofun trivial fun _ u hu hvu _ => ?_
        refine ⟨hu, (hv.caught hdue fun journal hj => ?_).ahead hvu⟩
        rw [← hsame] at hj
        cases hj
  | .absent =>
      refine ⟨hv, hv.caught hdue fun journal hj => ?_⟩
      rcases hloaded with ⟨hfailed, -⟩ | hsame
      · cases hfailed
      · rw [← hsame] at hj
        cases hj
  | .found journal =>
      have hjournal : v.endpoint.disk.journal = .found journal := by
        rcases hloaded with ⟨hfailed, -⟩ | hsame
        · cases hfailed
        · exact hsame.symm
      have hat : At r agentId journal.releaseID v := by
        refine ⟨fun hr => (hv.held journal hjournal hr).1, fun hr => ?_⟩
        refine hv.caught hdue fun other hother => ?_
        rw [hjournal] at hother
        cases hother
        exact hr
      simp only []
      split
      · refine going_within within_discardStaged hv hat.come
          fun _ u hu hvu => ?_
        have hat := hat.ahead hvu
        exact going_saveJournal hu hat
          (fun x hx hux _ => resolved_failed hx (hat.ahead hux))
          fun x hx _ hmissed => ⟨hx, caught_of_missed hmissed⟩
      · exact resolved_resolveInstalled hv hat
      · next hstate =>
        exact resolved_succeeded hv hat fun hr =>
          (hv.held journal hjournal hr).2 hstate
      · exact resolved_rolledBack hv hat
      · exact resolved_failed hv hat
      · exact going_act hv nofun hat.come fun _ u hu hvu _ =>
          resolved_failed hu (hat.ahead hvu)

theorem within_acknowledge : acknowledge.Uses (Within releaseID) := by
  have hclear : (act .clearJournal >>= fun _ => pure () :
      UpdateProg Unit).Uses (Within releaseID) :=
    uses_act (o := .clearJournal) trivial fun _ => uses_pure
  refine uses_act (P := Within releaseID) (o := .loadJournal) trivial
    fun loaded => ?_
  change Loaded UpdateJournal at loaded
  cases loaded with
  | failed => exact hclear
  | absent => exact hclear
  | found journal =>
      simp only []
      split
      · exact uses_pure
      · exact hclear

/-- Between programs: sound, with what was due caught. -/
def AtRest (r : AgentUpdateRelease) (agentId : String) (w : AccountWorld) :
    Prop :=
  AccountSound r agentId w ∧ Caught agentId w

theorem caught_resolveSelfUpdate (hw : AccountSound r agentId w)
    (hdue : w.due = true → w.stage = .journalled)
    (hopts : opts.normalized.isSome = true) :
    Going sha256 ops r agentId (fun _ => AtRest r agentId)
      (resolveSelfUpdate onWindows opts) w := by
  rw [resolveSelfUpdate]
  split
  · next hnone =>
    rw [hnone] at hopts
    cases hopts
  · refine wp_seq (resolved_resolve hw hdue) fun ended v hv => ?_
    obtain ⟨hv, hended⟩ := hv
    cases ended with
    | failed => exact ⟨hv, hended⟩
    | nothing => exact ⟨hv, hended⟩
    | outcome status journal =>
        obtain ⟨hat, told, hstatus, htold⟩ := hended
        refine going_act hv (by intro h; cases h) (fun hr => ⟨hat.journalled hr, told, hstatus,
          htold hr⟩) fun reported u hu hvu hreported => ?_
        have hcaught : Caught agentId u := by
          by_cases hr : OfRelease r journal.releaseID
          · rcases hreported hr with ⟨-, hmissed⟩ | ⟨-, hrecorded⟩
            · exact caught_of_missed hmissed
            · exact fun _ => .inr hrecorded
          · exact (hat.caught hr).ahead hvu
        split
        · exact wp_mono (within_steps within_acknowledge hu come_empty)
            fun _ x hx => ⟨hx.1, hcaught.ahead hx.2⟩
        · exact ⟨hu, hcaught⟩

theorem atRest_bootUpdates (hw : AccountSound r agentId w) :
    Going sha256 ops r agentId (fun _ => AtRest r agentId)
      (bootUpdates onWindows) w := by
  have htorn : ∀ v, (clearWorld sha256 ops r agentId).torn w .starts v →
      AccountSound r agentId v :=
    fun v ht => (hw.torn (o := .starts) trivial ht).1
  refine wp_act.mpr ⟨trivial, hw, htorn, fun opts v hd => ?_⟩
  obtain ⟨hv, hopts, hdue⟩ := hw.starts hd
  show Going sha256 ops r agentId (fun _ => AtRest r agentId)
    (resolveSelfUpdate onWindows opts >>= fun _ => pure (some opts)) v
  exact wp_seq (caught_resolveSelfUpdate hv hdue hopts) fun _ u hu => hu

theorem atRest_runCommand {cmd : Agent.SelfUpdate.UpdateCommand}
    (hw : AtRest r agentId w) :
    Going sha256 ops r agentId (fun _ => AtRest r agentId)
      (runCommand onWindows sameName opts cmd) w := by
  refine going_act hw.1 nofun trivial fun _ v hv hahead hcmd => ?_
  refine wp_seq (ends_execute hv (come_of_updatesTo hcmd)) fun _ u hu => ?_
  exact ⟨hu.sound, hw.2.ahead (hahead.trans hu.ahead)⟩

/-! ## Runs -/

theorem accountSound_fresh {files : BuildFile → Option Bytes}
    {fleet : List UpdateAgent} :
    AccountSound r agentId (freshAccount r files fleet) where
  server := ⟨List.nodup_nil, fun _ h => absurd h List.not_mem_nil,
    fun _ _ h => absurd h Open.not_has_empty⟩
  attempted h := absurd rfl h
  kept := nofun
  held _ h := by cases h

/-- An attempt with an outcome that was not confirmed has failed or been rolled
back. -/
theorem accounted_of_recorded (hw : AccountSound r agentId w)
    (hconfirmed : w.confirmed = false) (h : Recorded agentId w.server) :
    AccountedFor ops agentId w.server := by
  obtain ⟨a, ha, hid, hstatus⟩ := h
  rcases hw.server.rows a ha hid with hdispatched | hfailed | hrolledBack | hc
  · exact absurd hdispatched hstatus
  · exact .inl ⟨a, ha, hid, .inl hfailed⟩
  · exact .inl ⟨a, ha, hid, .inr hrolledBack⟩
  · rw [hc.2] at hconfirmed
    cases hconfirmed

end Endpoint

/-- In every run whose steps are clear, no attempt is left over: once a start
has gone through after the command was taken up or had ended, and the build was
not confirmed, the attempt is recorded as failed or rolled back. -/
theorem attempts_accounted_while {sha256 : Bytes → String} {ops : UpdateOps}
    {r : AgentUpdateRelease} {agentId : String} {onWindows : Bool}
    {sameName : String → String} {files : BuildFile → Option Bytes}
    {fleet : List UpdateAgent}
    {c : AccountWorld × Proc UpdateOp UpdateOp.Ans UpdateOptions}
    (hrun : (updateMachine onWindows sameName).Run
      (clearWorld sha256 ops r agentId) (freshAccount r files fleet, .down) c) :
    NoneLeft ops agentId c := by
  have hfresh : Machine.Good (clearWorld sha256 ops r agentId) (Guard r)
      (AccountSound r agentId)
      (fun (_ : UpdateOptions) => AtRest r agentId)
      (freshAccount r files fleet, .down) := accountSound_fresh
  have hgood : Machine.Good (clearWorld sha256 ops r agentId) (Guard r)
      (AccountSound r agentId)
      (fun (_ : UpdateOptions) => AtRest r agentId) c := by
    refine Machine.good_run (fun _ _ h => h.1) ?_ ?_ hfresh hrun
    · intro w hw
      exact wp_mono (atRest_bootUpdates hw) fun res v hv => by
        cases res with
        | none => exact hv.1
        | some opts => exact hv
    · intro opts p w hw hp
      obtain ⟨cmd, rfl⟩ := hp
      exact wp_mono (atRest_runCommand hw) fun res v hv => by
        cases res with
        | none => exact hv.1
        | some opts => exact hv
  obtain ⟨w, proc⟩ := c
  cases proc with
  | down => trivial
  | busy p => trivial
  | idle opts =>
      obtain ⟨hsound, hcaught⟩ : AtRest r agentId w := hgood
      intro hdue hmissed hconfirmed
      rcases hcaught hdue with hmissed' | hrecorded
      · rw [hmissed] at hmissed'
        cases hmissed'
      · exact accounted_of_recorded hsound hconfirmed hrecorded

/-! ## Sample runs -/

/-- An endpoint with an attempt is passed over by every advance. -/
theorem passOver_attempted {ops : UpdateOps} {r : AgentUpdateRelease}
    {already : List String} {a : UpdateAgent} (h : a.id ∈ already) :
    passOver ops r already a = some "already_attempted" := by
  rw [passOver, if_pos h]

/-- SHA-256 of `release-1:a`. -/
def sampleOps : UpdateOps :=
  { RolloutControl.sampleOps with
    sha256 := fun _ =>
      [0xa6, 0x10, 0xef, 0x70, 0xb3, 0xd6, 0xd4, 0xf5,
        0x2c, 0xa2, 0x2e, 0x69, 0xfc, 0x8d, 0xa9, 0xa3,
        0x97, 0xa1, 0x73, 0xa4, 0x0b, 0xf1, 0x0e, 0x0d,
        0xaa, 0x17, 0x46, 0x66, 0xb4, 0x26, 0x94, 0x0b] }

def sampleRelease : AgentUpdateRelease where
  id := "release-1"
  version := "1.2.0"
  channel := "stable"
  platform := "linux/amd64"
  minSupportedVersion := "1.0.0"
  updatedAt := 0

def sampleAgent : UpdateAgent where
  id := "a"
  os := "linux"
  architecture := "amd64"
  agentVersion := "1.0.0"
  supportedCapabilities := ["agent-self-update-v1"]
  commandEnvelopeVersions := ["command-v3"]

def sampleAccount : AccountWorld :=
  freshAccount sampleRelease
    (fun path => if path = .executable then some "a".toUTF8.toList else none)
    [sampleAgent]

/-- An advance to all endpoints. -/
def rollsOut : List Action :=
  [.begin 0 1 (.advance 100 200), .count 0 1, .target 0 1 ["command-1"],
    .commit 0]

/-- A report of the endpoint, with nothing in between. -/
def reports (body : SelfUpdateReport) : List Action :=
  [.begin 1 2 (.report "a" body), .count 1 2, .commit 1]

/-- What happens around an action: the release is rolled out, if it has not
been, and the command may lapse at once. -/
def sampleAround (lapses : Bool) (w : AccountWorld) : Option AccountWorld :=
  if w.server.attempts ≠ [] then some w
  else if w.stage = .waiting ∧
      (system sampleOps).runs w.server rollsOut = true ∧
      ∃ a ∈ ((system sampleOps).run w.server rollsOut).attempts,
        a.agentId = "a" ∧ a.commandId = "command-1" then
    some { w with
      server := (system sampleOps).run w.server rollsOut
      stage := if lapses then .lapsed else .waiting }
  else none

def sampleServer (s : State) : UpdateOp → Option State
  | .report outcome =>
    if OfRelease sampleRelease outcome.releaseID then
      (selfUpdateReportIn outcome).bind fun body =>
        if (system sampleOps).runs s (reports body) = true then
          some ((system sampleOps).run s (reports body))
        else none
    else some s
  | _ => some s

instance (w : AccountWorld) : Decidable (Recorded "a" w.server) :=
  inferInstanceAs (Decidable (∃ a ∈ w.server.attempts, _))

instance (w : AccountWorld) : Decidable (Pending sampleRelease "a" w) :=
  match h : w.endpoint.disk.journal with
  | .found journal =>
    decidable_of_iff
      (OfRelease sampleRelease journal.releaseID ∧ ¬ Recorded "a" w.server)
      ⟨fun hp => ⟨journal, h, hp⟩, fun ⟨other, hj, hp⟩ => by
        rw [h] at hj
        cases hj
        exact hp⟩
  | .failed => isFalse fun ⟨_, hj, _⟩ => by
    rw [h] at hj
    cases hj
  | .absent => isFalse fun ⟨_, hj, _⟩ => by
    rw [h] at hj
    cases hj

instance (w : AccountWorld) (o : UpdateOp) :
    Decidable (TakenInOrder sampleRelease "a" w o) :=
  match o with
  | .takesUp _ (.selfUpdate commandID (some p)) =>
    inferInstanceAs (Decidable (OfRelease sampleRelease p.releaseID →
      w.stage = .waiting ∧ ∃ a ∈ w.server.attempts, a.agentId = "a" ∧
        a.commandId = commandID))
  | .takesUp _ (.selfUpdate _ none) => isTrue trivial
  | .takesUp _ (.rollback _ _) => isTrue trivial
  | .starts | .now | .loadJournal | .saveJournal _ | .clearJournal
  | .loadPrevious | .savePrevious _ | .makeStaging | .download _ _
  | .verifyAuthenticode _ | .fileDigest _ | .copyFile _ _ | .chmod _
  | .rename _ _ | .remove _ | .removeStaging | .pruneDisplaced
  | .restartService | .checkHealth | .report _ => isTrue trivial

instance (w : AccountWorld) (o : UpdateOp) (a : o.Ans) :
    Decidable (Clear sampleRelease "a" w o a) :=
  match o, a with
  | .starts, (opts : UpdateOptions) =>
    inferInstanceAs (Decidable (opts.normalized.isSome = true ∧
      (w.stage = .waiting ∨ w.stage = .journalled)))
  | .saveJournal journal, _ =>
    inferInstanceAs (Decidable (Pending sampleRelease "a" w →
      OfRelease sampleRelease journal.releaseID))
  | .clearJournal, _ =>
    inferInstanceAs (Decidable (¬ Pending sampleRelease "a" w))
  | .report outcome, _ =>
    inferInstanceAs (Decidable (OfRelease sampleRelease outcome.releaseID →
      (selfUpdateReportIn outcome).isSome = true))
  | .takesUp _ _, _ | .now, _ | .loadJournal, _ | .loadPrevious, _
  | .savePrevious _, _ | .makeStaging, _ | .download _ _, _
  | .verifyAuthenticode _, _ | .fileDigest _, _ | .copyFile _ _, _
  | .chmod _, _ | .rename _ _, _ | .remove _, _ | .removeStaging, _
  | .pruneDisplaced, _ | .restartService, _ | .checkHealth, _ =>
    isTrue trivial

/-- An action at the endpoint of the earlier samples, where it is in order and
`allowed`. -/
def sampleStep (lapses : Bool)
    (allowed : AccountWorld → (o : UpdateOp) → o.Ans → Bool)
    (w : AccountWorld) (o : UpdateOp) : Option (o.Ans × AccountWorld) :=
  (sampleAround lapses w).bind fun v =>
    if allowed v o (UpdateAttempts.sampleAnswer true v.endpoint o).1 = true ∧
        TakenInOrder sampleRelease "a" v o then
      (sampleServer v.server o).map fun s =>
        ((UpdateAttempts.sampleAnswer true v.endpoint o).1,
          { noted sampleRelease v
              (UpdateAttempts.sampleAnswer true v.endpoint o).2 o
              (UpdateAttempts.sampleAnswer true v.endpoint o).1 with
            server := s })
    else none

theorem around_sampleAround {lapses : Bool} {w v : AccountWorld}
    (h : sampleAround lapses w = some v) : Around sampleOps "a" w v := by
  unfold sampleAround at h
  split at h
  · cases h
    exact ⟨w.server, ⟨[], fun _ ha => absurd ha List.not_mem_nil, rfl, rfl⟩,
      .inl rfl⟩
  · split at h
    · next hready =>
      obtain ⟨hwaiting, hruns, hdispatched⟩ := hready
      cases h
      refine ⟨(system sampleOps).run w.server rollsOut,
        ⟨rollsOut, by decide, hruns, rfl⟩, ?_⟩
      cases lapses with
      | true => exact .inr ⟨hwaiting, ⟨"command-1", hdispatched⟩, rfl⟩
      | false =>
          refine .inl ?_
          rw [← hwaiting]
          rfl
    · cases h

theorem serverDoes_sampleServer {e : UpdateWorld} {s s' : State} {o : UpdateOp}
    (h : sampleServer s o = some s') :
    serverDoes sampleOps sampleRelease "a" s o
      (UpdateAttempts.sampleAnswer true e o).1 s' := by
  cases o with
  | report outcome =>
      simp only [sampleServer] at h
      simp only [serverDoes]
      split at h
      · next hr =>
        rw [if_pos hr]
        obtain ⟨body, hbody, hrest⟩ := Option.bind_eq_some_iff.mp h
        rw [hbody]
        split at hrest
        · next hruns =>
          cases hrest
          exact .inl ⟨rfl, 1, 2, [.count 1 2], by simp [ownReport, settles],
            hruns, rfl⟩
        · cases hrest
      · next hr =>
        rw [if_neg hr]
        cases h
        rfl
  | _ =>
      cases h
      rfl

theorem does_sampleStep {lapses : Bool}
    {allowed : AccountWorld → (o : UpdateOp) → o.Ans → Bool}
    {w w' : AccountWorld} {o : UpdateOp} {a : o.Ans}
    (h : sampleStep lapses allowed w o = some (a, w')) :
    accountDoes UpdateAttempts.sampleDigest sampleOps sampleRelease "a"
      (fun v o a => allowed v o a = true) w o a w' := by
  obtain ⟨v, haround, hstep⟩ := Option.bind_eq_some_iff.mp h
  split at hstep
  · next hallowed =>
    obtain ⟨s, hserver, heq⟩ := Option.map_eq_some_iff.mp hstep
    cases heq
    exact ⟨v, _, s, around_sampleAround haround, hallowed.1, hallowed.2,
      UpdateAttempts.sampleAnswer_lawful, serverDoes_sampleServer hserver, rfl⟩
  · cases hstep

/-- Every action is allowed, and the command lapses. -/
def lapsingTryout :
    Tryout (accountWorld UpdateAttempts.sampleDigest sampleOps sampleRelease
      "a") where
  answer := sampleStep true fun _ _ _ => true
  lawful _ _ _ _ h :=
    let ⟨v, after, s, haround, _, hrest⟩ := does_sampleStep h
    ⟨v, after, s, haround, trivial, hrest⟩

/-- Clear actions. -/
def clearTryout :
    Tryout (clearWorld UpdateAttempts.sampleDigest sampleOps sampleRelease
      "a") where
  answer := sampleStep false fun w o a => decide (Clear sampleRelease "a" w o a)
  lawful _ _ _ _ h :=
    let ⟨v, after, s, haround, hclear, hrest⟩ := does_sampleStep h
    ⟨v, after, s, haround, of_decide_eq_true hclear, hrest⟩

/-- A start, an update, and a restart that brings up another version than it
was to. -/
def rolledBackTurns :
    List (Option (UpdateOptions → UpdateProg (Option UpdateOptions))) :=
  [none, some fun opts => runCommand false id opts
    (.selfUpdate "command-1" (some (releaseOf "1.2.0"))), none]

def rolledBackEnd : Option (AccountWorld × Option UpdateOptions) :=
  clearTryout.turns (updateMachine false id) (sampleAccount, none)
    rolledBackTurns

/-- What the endpoint has come to, where it is idle. -/
def summary (c : AccountWorld × Option UpdateOptions) :
    Option (Bool × Bool × Bool × List (String × AttemptStatus)) :=
  c.2.map fun _ => (c.1.due, c.1.missed, c.1.confirmed,
    c.1.server.attempts.map fun a => (a.agentId, a.status))

theorem rolledBackEnd_summary : rolledBackEnd.bind summary =
    some (true, false, false, [("a", .rolledBack)]) := by
  decide +kernel

theorem starts_rolledBackTurns
    (f : UpdateOptions → UpdateProg (Option UpdateOptions))
    (hf : some f ∈ rolledBackTurns) (opts : UpdateOptions) :
    (updateMachine false id).starts opts (f opts) := by
  simp only [rolledBackTurns, List.mem_cons, reduceCtorEq, Option.some.injEq,
    List.not_mem_nil, false_or, or_false] at hf
  rw [hf]
  exact ⟨_, rfl⟩

theorem attempts_accounted_while_rolledBack :
    ∃ c, rolledBackEnd = some c ∧
      summary c = some (true, false, false, [("a", .rolledBack)]) ∧
        NoneLeft sampleOps "a" (c.1, .ofOption c.2) := by
  obtain ⟨c, hc, hsummary⟩ := Option.bind_eq_some_iff.mp rolledBackEnd_summary
  have hrun := clearTryout.run_turns starts_rolledBackTurns hc
  exact ⟨c, hc, hsummary, attempts_accounted_while hrun⟩

/-- The command expires in the queue, and the endpoint is started again and
again. -/
def lapsedEnd : Option (AccountWorld × Option UpdateOptions) :=
  lapsingTryout.turns (updateMachine false id) (sampleAccount, none)
    [none, none, none]

theorem lapsedEnd_summary : lapsedEnd.bind summary =
    some (true, false, false, [("a", .dispatched)]) := by
  decide +kernel

/-- An attempt that is still dispatched is not accounted for where an advance
would cover its endpoint. -/
theorem not_accounted {ops : UpdateOps} {agentId : String} {s : State}
    {r : AgentUpdateRelease} {a : UpdateAgent} (hid : a.id = agentId)
    (hcovered : passOver ops r [] a = none) (hattempted : Attempted agentId s)
    (hdispatched : ∀ b ∈ s.attempts, b.agentId = agentId →
      b.status = .dispatched) : ¬ AccountedFor ops agentId s := by
  rintro (⟨b, hb, hbid, hstatus⟩ | hagain)
  · rw [hdispatched b hb hbid] at hstatus
    rcases hstatus with h | h
    · cases h
    · cases h
  · obtain ⟨b, hb, hbid⟩ := hattempted
    have hmem : a.id ∈ s.attempts.map (·.agentId) := by
      rw [hid, ← hbid]
      exact List.mem_map_of_mem hb
    have hnone := hagain r a hid hcovered
    rw [passOver_attempted hmem] at hnone
    cases hnone

/-- A command expires before it is delivered: through every restart its attempt
stays dispatched, and every advance passes the endpoint over. -/
theorem lapsed_attempt_left :
    ¬ ∀ c, (updateMachine false id).Run
      (accountWorld UpdateAttempts.sampleDigest sampleOps sampleRelease "a")
        (sampleAccount, .down) c → NoneLeft sampleOps "a" c := by
  intro hall
  obtain ⟨⟨w, res⟩, hend, hsummary⟩ :=
    Option.bind_eq_some_iff.mp lapsedEnd_summary
  have hrun := lapsingTryout.run_turns
    (fun f hf => absurd hf (by simp)) hend
  obtain ⟨opts, rfl, hfacts⟩ := Option.map_eq_some_iff.mp hsummary
  simp only [Prod.mk.injEq] at hfacts
  obtain ⟨hdue, hmissed, hconfirmed, hattempts⟩ := hfacts
  refine not_accounted (r := { sampleRelease with rolloutPercent := 100 })
    (a := sampleAgent) rfl (by decide +kernel) ?_ ?_
    (hall _ hrun hdue hmissed hconfirmed)
  · have hmem : ("a", AttemptStatus.dispatched) ∈
        w.server.attempts.map fun a => (a.agentId, a.status) := by
      rw [hattempts]
      exact List.mem_singleton_self _
    obtain ⟨a, ha, heq⟩ := List.mem_map.mp hmem
    exact ⟨a, ha, congrArg Prod.fst heq⟩
  · intro b hb _
    have hmem := List.mem_map_of_mem
      (f := fun a : AgentUpdateAttempt => (a.agentId, a.status)) hb
    rw [hattempts] at hmem
    exact congrArg Prod.snd (List.mem_singleton.mp hmem)

end NodeLink.Proofs.UpdateAccounting
