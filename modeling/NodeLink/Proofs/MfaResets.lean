import Mathlib
import NodeLink.Server.MfaReset
import NodeLink.Proofs.ChallengeUses
import NodeLink.Proofs.EmailCodeBounds
import NodeLink.Proofs.SessionEndings

/-!
# What a reset leaves

`revoke_all_factors` says that it clears every second factor and goes through
three tables, the authenticators, the recovery codes and the challenges. The
mailbox and the codes sent to it are in two more, which only `remove_factor`
touches. So a reset leaves a known state when the mailbox was none: the policy
is off, or it is not a factor and no code that is out can make it one.
-/

namespace NodeLink.Proofs.MfaResets

open Lib Server.OperatorSessions Server.MfaReset SessionEndings

/-! ## Tokens of an earlier generation -/

section Tokens

variable {cfg : Settings} {s s' : State}

/-- A token is of the operator's generation, or of an earlier one. -/
def Dated (s : State) (claims : Claims) : Prop :=
  ∃ o, s.operators claims.sub = some o ∧ claims.gen ≤ o.tokenGeneration

def Current (s : State) : Prop := ∀ i ∈ s.issued, Dated s i.claims

/-- Operators stay, and their generation does not go back. -/
def Kept (s s' : State) : Prop :=
  ∀ id o, s.operators id = some o →
    ∃ o', s'.operators id = some o' ∧ o.tokenGeneration ≤ o'.tokenGeneration

theorem Dated.kept {claims : Claims} (h : Dated s claims) (hkept : Kept s s') :
    Dated s' claims := by
  obtain ⟨o, ho, hle⟩ := h
  obtain ⟨o', ho', hle'⟩ := hkept _ o ho
  exact ⟨o', ho', hle.trans hle'⟩

theorem operatorForClaims_some {claims : Claims} {o : OperatorRow}
    (h : operatorForClaims s claims = some o) :
    s.operators claims.sub = some o ∧ claims.gen = o.tokenGeneration := by
  unfold operatorForClaims at h
  split at h
  · cases h
  · next row hrow =>
      split at h
      · cases h
      · split at h
        · cases h
        · next hgen =>
            cases h
            exact ⟨hrow, not_not.mp hgen⟩

/-- A caller is of the token's generation. -/
theorem caller_dated {claims : Claims} {caller : Caller} {after : State}
    (h : getCurrentOperator cfg s claims = (some caller, after)) :
    caller.operatorId = claims.sub ∧ caller.operator.tokenGeneration = claims.gen := by
  unfold getCurrentOperator at h
  split at h
  · split at h
    · cases h
    · next operator hop =>
        obtain ⟨_, hgen⟩ := operatorForClaims_some hop
        unfold bindSession at h
        split at h
        · split at h
          · cases h
            exact ⟨rfl, hgen.symm⟩
          · cases h
        · split at h
          · cases h
          · cases h
            exact ⟨rfl, hgen.symm⟩
  · cases h

theorem current_append (h : Current s) (hkept : Kept s s') {i : Issued}
    (hissued : s'.issued = s.issued ++ [i]) (hi : Dated s' i.claims) :
    Current s' := by
  intro j hj
  rw [hissued] at hj
  rcases List.mem_append.mp hj with hold | hnew
  · exact (h j hold).kept hkept
  · rw [List.mem_singleton.mp hnew]
    exact hi

theorem current_same (h : Current s) (hkept : Kept s s')
    (hissued : s'.issued = s.issued) : Current s' := by
  intro j hj
  rw [hissued] at hj
  exact (h j hj).kept hkept

theorem current_refresh (h : Current s) {token : Issued} (htoken : token ∈ s.issued) :
    Current (refreshSession cfg s token) := by
  have hkept : Kept _ _ := (@follows_refreshSession cfg s token).operators
  obtain ⟨_, hissued, _⟩ := @getCurrentOperator_spec cfg s token.claims
  unfold refreshSession at hkept ⊢
  split at hkept
  · next s' hauth =>
      rw [hauth] at hissued
      exact current_same h hkept hissued
  · next caller s' hauth =>
      rw [hauth] at hissued
      obtain ⟨hsub, hgen⟩ := caller_dated hauth
      split at hkept
      · exact h
      · refine current_append h hkept (congrArg (· ++ [_]) hissued) ?_
        have hold := (h token htoken).kept hkept
        rw [Dated] at hold ⊢
        rw [← hsub, ← hgen] at hold
        exact hold

theorem current_stepUp (h : Current s) {token : Issued} (htoken : token ∈ s.issued) :
    Current (completeStepUp cfg s token) := by
  have hkept : Kept _ _ := (@follows_completeStepUp cfg s token).operators
  obtain ⟨_, hissued, _⟩ := @getCurrentOperator_spec cfg s token.claims
  unfold completeStepUp at hkept ⊢
  split at hkept
  · next s' hauth =>
      rw [hauth] at hissued
      exact current_same h hkept hissued
  · next caller s' hauth =>
      rw [hauth] at hissued
      obtain ⟨hsub, hgen⟩ := caller_dated hauth
      refine current_append h hkept (congrArg (· ++ [_]) hissued) ?_
      have hold := (h token htoken).kept hkept
      rw [Dated] at hold ⊢
      rw [← hsub, ← hgen] at hold
      exact hold

theorem current_beginLogin (h : Current s) (operatorId : String) :
    Current (beginLogin cfg s operatorId) := by
  unfold beginLogin
  split
  · exact h
  · next operator ho =>
      split
      · exact h
      · exact current_append h operators_refl rfl ⟨operator, ho, le_refl _⟩

theorem current_completeLogin (h : Current s) (operatorId sid : String)
    (amr : List AuthMethod) (stepUp isBreakGlass : Bool) :
    Current (completeLogin cfg s operatorId sid amr stepUp isBreakGlass) := by
  unfold completeLogin
  split
  · exact h
  · next operator ho =>
      split
      · exact h
      · split
        · exact h
        · exact current_append h operators_refl rfl ⟨operator, ho, le_refl _⟩

theorem Current.step (h : Current s) (e : Event) :
    Current (Server.OperatorSessions.step cfg s e) := by
  rcases @step_issued cfg s e with hsame | ⟨i, _, hminted⟩
  · exact current_same h (@step_follows cfg s e).operators hsame
  · cases hminted with
    | pending htyp => exact current_beginLogin h _
    | login horigin hsid => exact current_completeLogin h _ _ _ _ _
    | refresh htoken htyp horigin hold hsid =>
        rw [Server.OperatorSessions.step, if_pos htoken]
        exact current_refresh h htoken
    | stepUp htoken htyp horigin hsid hexp =>
        rw [Server.OperatorSessions.step, if_pos htoken]
        exact current_stepUp h htoken

theorem current_run (h : Current s) (events : List Event) :
    Current (run cfg s events) := by
  induction events generalizing s with
  | nil => exact h
  | cons e events ih => exact ih (h.step e)

theorem kept_run (events : List Event) : Kept s (run cfg s events) := by
  induction events generalizing s with
  | nil => exact operators_refl
  | cons e events ih =>
      intro id o ho
      obtain ⟨o', ho', hle⟩ := (@step_follows cfg s e).operators id o ho
      obtain ⟨o'', ho'', hle'⟩ := ih id o' ho'
      exact ⟨o'', ho'', hle.trans hle'⟩

theorem operatorForClaims_stale {claims : Claims} {o : OperatorRow}
    (ho : s.operators claims.sub = some o) (hlt : claims.gen < o.tokenGeneration) :
    operatorForClaims s claims = none := by
  cases h : operatorForClaims s claims with
  | none => rfl
  | some row =>
      obtain ⟨hrow, hgen⟩ := operatorForClaims_some h
      rw [ho] at hrow
      cases hrow
      omega

/-- A token of an earlier generation is let in nowhere. -/
theorem accepts_stale {claims : Claims} {o : OperatorRow} (dep : Dependency)
    (ho : s.operators claims.sub = some o) (hlt : claims.gen < o.tokenGeneration) :
    accepts cfg s claims dep = false := by
  have hnone := operatorForClaims_stale ho hlt
  cases dep with
  | currentOperator =>
      rw [accepts, authenticate, getCurrentOperator, hnone]
      split <;> rfl
  | mfaPendingOperator =>
      rw [accepts, authenticate, getMfaPendingOperator, hnone]
      split <;> rfl
  | enrollmentOperator =>
      rw [accepts, authenticate, getEnrollmentOperator, hnone]
      split <;> rfl

end Tokens

/-! ## Presenting an emailed code -/

section Codes

variable {cfg : Server.EmailCodes.Config} {c row : Server.EmailCodes.EmailCode}
  {now : Int} {normalized email : String} {rows : List Server.EmailCodes.EmailCode}

/-- The first code that has not expired. -/
def current (now : Int) (rows : List Server.EmailCodes.EmailCode) :
    Option Server.EmailCodes.EmailCode :=
  rows.find? fun c => decide (now < c.expiresAt)

theorem judge_lapsed : ∀ id ∈ (Server.EmailCodes.judge cfg now normalized email rows).1,
    ∃ row ∈ rows, row.id = id := by
  induction rows with
  | nil => exact fun id hid => by cases hid
  | cons row rows ih =>
      intro id hid
      unfold Server.EmailCodes.judge at hid
      split at hid
      · rcases List.mem_cons.mp hid with heq | hid
        · exact ⟨row, List.mem_cons_self, heq.symm⟩
        · obtain ⟨r, hr, hrid⟩ := ih id hid
          exact ⟨r, List.mem_cons_of_mem _ hr, hrid⟩
      · cases hid

theorem judge_eq : (Server.EmailCodes.judge cfg now normalized email rows).2 =
    match current now rows with
    | none => .unmatched
    | some row => Server.EmailCodes.attempt cfg normalized email row := by
  induction rows with
  | nil => rfl
  | cons row rows ih =>
      unfold Server.EmailCodes.judge current
      split
      · next hexpired =>
          rw [List.find?_cons_of_neg (by simpa using hexpired)]
          exact ih
      · next hfresh =>
          rw [List.find?_cons_of_pos (by simpa using hfresh)]

/-- The value is the code of the row, which was sent to the operator's address. -/
def Redeems (cfg : Server.EmailCodes.Config) (normalized email : String)
    (row : Server.EmailCodes.EmailCode) : Prop :=
  Server.EmailCodes.matchesCode cfg normalized row = true ∧
    Server.EmailCodes.normalizeAddress cfg.texts row.address =
      Server.EmailCodes.normalizeAddress cfg.texts email

theorem attempt_cases : Server.EmailCodes.attempt cfg normalized email row =
      .matched ⟨row.id, row.attempts + 1, false⟩ ∧ Redeems cfg normalized email row ∨
    (∃ charge reason, Server.EmailCodes.attempt cfg normalized email row =
      .refused charge reason ∧ reason ≠ .accepted) ∧
      ¬ Redeems cfg normalized email row := by
  unfold Server.EmailCodes.attempt
  simp only
  split
  · next hno =>
      rw [Bool.not_eq_true'] at hno
      refine Or.inr ⟨⟨_, _, rfl, ?_⟩, fun h => ?_⟩
      · split
        · exact fun h => by cases h
        · exact fun h => by cases h
      · rw [h.1] at hno
        cases hno
  · next hyes =>
      rw [Bool.not_eq_true', Bool.not_eq_false] at hyes
      split
      · next haddress =>
          exact Or.inr ⟨⟨_, _, rfl, fun h => by cases h⟩, fun h => haddress h.2⟩
      · next haddress => exact Or.inl ⟨rfl, hyes, not_not.mp haddress⟩

theorem replayReason_ne (normalized : String) :
    Server.EmailCodes.replayReason cfg normalized rows ≠ .accepted := by
  unfold Server.EmailCodes.replayReason
  split
  · exact fun h => by cases h
  · split
    · exact fun h => by cases h
    · exact fun h => by cases h

theorem flush_accepted {s : Server.EmailCodes.State} {x : Server.EmailCodes.Txn}
    (h : (Server.EmailCodes.flush s x).stage = .flushed .accepted)
    (hx : ∀ reason, x.stage ≠ .flushed reason) : x.stage = .answered .accepted := by
  unfold Server.EmailCodes.flush at h
  split at h
  · next reason hstage =>
      simp only at h
      split at h
      · cases h
        exact hstage
      · cases h
  · exact absurd h (hx _)

end Codes

section Reset

variable {cfg : Config} {site after : Site} {id presented : String} {found : Found}
  {purpose : Server.EmailCodes.Purpose}

/-- The rows are what the query for live codes finds. -/
def Finds (site : Site) (id : String) (purpose : Server.EmailCodes.Purpose)
    (found : Found) : Prop :=
  Server.EmailCodes.answersQuery found.live
    ((site.emailCodes id).codes.filter (Server.EmailCodes.liveFor purpose)) = true

theorem mem_of_finds (h : Finds site id purpose found) {row : Server.EmailCodes.EmailCode}
    (hrow : row ∈ found.live) :
    row ∈ (site.emailCodes id).codes ∧ row.consumedAt = none := by
  have hperm := List.isPerm_iff.mp (Bool.and_eq_true_iff.mp h).1
  obtain ⟨hmem, hlive⟩ := List.mem_filter.mp (hperm.mem_iff.mp hrow)
  have hlive := (Bool.and_eq_true_iff.mp hlive).2
  exact ⟨hmem, Option.isNone_iff_eq_none.mp (Bool.and_eq_true_iff.mp hlive).1⟩

/-- A value is accepted when it redeems the first code that has not expired. -/
theorem consumeCode_accepted (h : Finds site id purpose found) :
    (consumeCode cfg site id presented purpose found).stage = .flushed .accepted ↔
      ∃ row, current (site.emailCodes id).clock found.live = some row ∧
        Redeems cfg.codes (Server.EmailCodes.normalizeCode cfg.codes.texts presented)
          (site.emails id) row := by
  have hjudge := @judge_eq cfg.codes (site.emailCodes id).clock
    (Server.EmailCodes.normalizeCode cfg.codes.texts presented) (site.emails id) found.live
  have hlapsed := @judge_lapsed cfg.codes (site.emailCodes id).clock
    (Server.EmailCodes.normalizeCode cfg.codes.texts presented) (site.emails id) found.live
  unfold consumeCode
  simp only [Server.EmailCodes.load, Server.EmailCodes.compareCode]
  generalize Server.EmailCodes.judge cfg.codes (site.emailCodes id).clock
    (Server.EmailCodes.normalizeCode cfg.codes.texts presented) (site.emails id)
    found.live = judged at hjudge hlapsed
  obtain ⟨lapsed, judgement⟩ := judged
  simp only at hjudge hlapsed
  cases hcurrent : current (site.emailCodes id).clock found.live with
  | none =>
      rw [hcurrent] at hjudge
      subst hjudge
      refine ⟨fun haccepted => ?_, fun hredeemed => by
        obtain ⟨_, hrow, _⟩ := hredeemed
        cases hrow⟩
      have hstage := flush_accepted haccepted fun reason hreason => by
        simp only [Server.EmailCodes.replay] at hreason
        cases hreason
      simp only [Server.EmailCodes.replay, Server.EmailCodes.Stage.answered.injEq] at hstage
      split at hstage
      · cases hstage
      · exact absurd hstage (replayReason_ne _)
  | some row =>
      rw [hcurrent] at hjudge
      simp only at hjudge
      rcases @attempt_cases cfg.codes row
        (Server.EmailCodes.normalizeCode cfg.codes.texts presented) (site.emails id) with
        ⟨hmatched, hredeems⟩ | ⟨⟨charge, reason, hrefused, hne⟩, hnot⟩
      · rw [hmatched] at hjudge
        subst hjudge
        refine ⟨fun _ => ⟨row, rfl, hredeems⟩, fun _ => ?_⟩
        have hmem := List.mem_of_find?_eq_some hcurrent
        obtain ⟨hcode, hopen⟩ := mem_of_finds h hmem
        have hdirty : ∀ i ∈ lapsed ++ [row.id], ∃ c ∈ (site.emailCodes id).codes,
            c.id = i := by
          intro i hi
          rcases List.mem_append.mp hi with hi | hi
          · obtain ⟨r, hr, hri⟩ := hlapsed i hi
            exact ⟨r, (mem_of_finds h hr).1, hri⟩
          · exact ⟨row, hcode, (List.mem_singleton.mp hi).symm⟩
        have hfind : ∃ c, (site.emailCodes id).unconsumed row.id = some c := by
          refine Option.isSome_iff_exists.mp (List.find?_isSome.mpr ⟨row, hcode, ?_⟩)
          rw [hopen, decide_eq_true rfl]
          rfl
        obtain ⟨c, hc⟩ := hfind
        simp only [Server.EmailCodes.claim, hc, Server.EmailCodes.flush]
        refine if_pos (List.all_eq_true.mpr fun i hi => ?_)
        obtain ⟨d, hd, hdi⟩ := hdirty i hi
        exact List.any_eq_true.mpr ⟨d, hd, decide_eq_true hdi⟩
      · rw [hrefused] at hjudge
        subst hjudge
        refine ⟨fun haccepted => ?_, fun hredeemed => ?_⟩
        · have hstage := flush_accepted haccepted fun _ hreason => by cases hreason
          simp only [Server.EmailCodes.Stage.answered.injEq] at hstage
          exact absurd hstage hne
        · obtain ⟨r, hr, hredeems⟩ := hredeemed
          cases hr
          exact absurd hredeems hnot

/-! ## The state after a reset -/

/-- The challenges that `consume_challenge` may select for the operator. -/
def Selects (site : Site) (id : String) (request : Server.MfaCeremonies.Request)
    (pick : Option Nat) : Prop :=
  Server.MfaCeremonies.selects site.ceremonies { request, operatorId := id } pick = true

/-- Nothing that is there, and none of the `old` tokens, completes a login of the
operator or helps with one, now or later. -/
structure KnownState (cfg : Config) (old : List Issued) (site : Site)
    (id : String) : Prop where
  tokens : ∀ i ∈ old, i.claims.sub = id → ∀ events dep,
    accepts cfg.sessions (run cfg.sessions site.accounts events) i.claims dep = false
  authenticators : site.ceremonies.activeCredentials id = []
  recoveryCodes : unusedRecoveryCodes site id = []
  challenges : ∀ now, site.accounts.now ≤ now → ∀ request pick,
    Selects (site.at now) id request pick → pick = none
  webauthn : ∀ now, site.accounts.now ≤ now → ∀ sid body pick,
    Selects (site.at now) id (.assertion .authentication body) pick →
      (completeLoginWithWebauthn cfg (site.at now) id sid body pick).1 = false
  recovery : ∀ now, site.accounts.now ≤ now → ∀ sid presented,
    (completeLoginWithRecoveryCode cfg (site.at now) id sid presented).1 = false
  email : ∀ now, site.accounts.now ≤ now → ∀ sid presented operator found,
    Finds (site.at now) id .login found →
      (completeLoginWithEmailCode cfg (site.at now) id sid presented operator
        found).1 = false
  enrollment : ∀ now, site.accounts.now ≤ now → ∀ presented found,
    Finds (site.at now) id .enrollment found →
      (verifyEmailEnrollment cfg (site.at now) id presented found).1 = false
  decision : ∀ now, site.accounts.now ≤ now → ∀ operator,
    ∀ m ∈ (decideLogin cfg (site.at now) id operator).methods, m = .enrollment

/-- A code that is out proves a mailbox that is being enrolled. -/
def Redeemable (cfg : Config) (site : Site) (id : String) : Prop :=
  (getFactor site id).isSome = true ∧
    ∃ now, site.accounts.now ≤ now ∧ ∃ presented found row,
      Finds site id .enrollment found ∧ current now found.live = some row ∧
      Redeems cfg.codes (Server.EmailCodes.normalizeCode cfg.codes.texts presented)
        (site.emails id) row

/-- What a reset leaves of each table. -/
structure Cleared (cfg : Config) (site after : Site) (id : String) : Prop where
  enforced : cfg.sessions.mfaEnforcement ≠ .off
  configured : cfg.relyingParty = true
  accounts : after.accounts = step cfg.sessions site.accounts (.bumpGeneration id)
  authenticators : after.ceremonies.activeCredentials id = []
  challenges : ∀ c ∈ after.ceremonies.challenges, c.operatorId ≠ id
  recoveryCodes : ∀ c ∈ after.recoveryCodes, c.operatorId ≠ id
  emails : after.emails = site.emails
  emailFactors : after.emailFactors = site.emailFactors
  emailCodes : after.emailCodes = site.emailCodes

theorem cleared_of_reset {out : MfaResetOut}
    (h : resetOperatorMfa cfg site id = .ok (out, after)) :
    Cleared cfg site after id := by
  unfold resetOperatorMfa at h
  split at h
  · cases h
  · next henforced =>
      split at h
      · cases h
      · next hconfigured =>
          split at h
          · cases h
          · cases h
            rw [Bool.not_eq_true', Bool.not_eq_false] at hconfigured
            refine ⟨henforced, hconfigured, rfl, ?_, fun c hc => ?_, fun c hc => ?_,
              rfl, rfl, rfl⟩
            · refine List.filter_eq_nil_iff.mpr fun k hk hactive => ?_
              obtain ⟨k', _, rfl⟩ := List.mem_map.mp hk
              rw [Bool.and_eq_true, decide_eq_true_iff] at hactive
              split at hactive
              · cases hactive.2
              · next hkept =>
                  exact hkept ⟨hactive.1, Option.isNone_iff_eq_none.mp hactive.2⟩
            · exact of_decide_eq_true (List.mem_filter.mp hc).2
            · exact of_decide_eq_true (List.mem_filter.mp hc).2

variable {old : List Issued}

/-- Old tokens are of an earlier generation, and stay so. -/
theorem Cleared.tokens (h : Cleared cfg site after id)
    (hcurrent : Current site.accounts) : ∀ i ∈ site.accounts.issued,
    i.claims.sub = id → ∀ events dep, accepts cfg.sessions
      (run cfg.sessions after.accounts events) i.claims dep = false := by
  intro i hi hsub events dep
  obtain ⟨o, ho, hle⟩ := hcurrent i hi
  have hbumped : after.accounts.operators i.claims.sub =
      some { o with tokenGeneration := o.tokenGeneration + 1 } := by
    rw [h.accounts, Server.OperatorSessions.step, State.editOperator, ← hsub]
    simp only [Function.update_self, ho]
    rfl
  obtain ⟨o', ho', hle'⟩ := @kept_run cfg.sessions _ events _ _ hbumped
  exact accepts_stale dep ho' (lt_of_lt_of_le (Nat.lt_succ_of_le hle) hle')

theorem Cleared.selects (h : Cleared cfg site after id) {now : Int}
    {request : Server.MfaCeremonies.Request} {pick : Option Nat}
    (hselects : Selects (after.at now) id request pick) : pick = none := by
  cases pick with
  | none => rfl
  | some n =>
      obtain ⟨c, hc, hpick⟩ := List.any_eq_true.mp hselects
      simp only [Server.MfaCeremonies.spendable, Server.MfaCeremonies.outstanding,
        Bool.and_eq_true, decide_eq_true_iff] at hpick
      exact absurd hpick.1.2.1.1.1 (h.challenges c hc)

/-- Without a challenge no assertion is verified. -/
theorem webauthn_refused {sid : String}
    {body : Server.MfaCeremonies.AssertionVerification} :
    (completeLoginWithWebauthn cfg site id sid body none).1 = false := by
  unfold completeLoginWithWebauthn
  split
  · rfl
  · rfl

theorem Cleared.unused (h : Cleared cfg site after id) :
    unusedRecoveryCodes after id = [] := by
  refine List.filter_eq_nil_iff.mpr fun c hc hunused => ?_
  rw [Bool.and_eq_true, decide_eq_true_iff] at hunused
  exact h.recoveryCodes c hc hunused.1

theorem recovery_refused {sid : String} (h : unusedRecoveryCodes site id = []) :
    (completeLoginWithRecoveryCode cfg site id sid presented).1 = false := by
  have hnone : consumeRecoveryCode cfg site id presented = none := by
    unfold consumeRecoveryCode
    simp only
    split
    · rfl
    · rw [h, List.mergeSort_nil]
      rfl
  unfold completeLoginWithRecoveryCode
  split
  · rfl
  · rw [hnone]

/-- Without an authenticator the mailbox is what is left to log in with. -/
theorem methods_cleared (henforced : cfg.sessions.mfaEnforcement ≠ .off)
    (h : site.ceremonies.activeCredentials id = []) (operator : OperatorRow) :
    (decideLogin cfg site id operator).methods =
      if decide (cfg.emailPolicy ≠ .off) && hasUsableFactor cfg site id then
        [.emailCode]
      else if enrollmentIsRequired cfg.sessions operator then [.enrollment]
      else [] := by
  unfold decideLogin hasActiveCredential
  rw [if_neg henforced, h]
  simp only [List.isEmpty_nil, Bool.not_true, Bool.false_eq_true, if_false]
  split
  · rfl
  · split <;> rfl

theorem email_refused {sid : String} {operator : OperatorRow}
    (h : .emailCode ∉ (decideLogin cfg site id operator).methods) :
    (completeLoginWithEmailCode cfg site id sid presented operator found).1 =
      false := by
  rw [completeLoginWithEmailCode, if_pos h, ite_self]

/-- A mailbox is proved by a code that redeems. -/
theorem enrollment_iff (h : Finds site id .enrollment found) :
    (verifyEmailEnrollment cfg site id presented found).1 = true ↔
      emailEnabled cfg = true ∧ (getFactor site id).isSome = true ∧
        ∃ row, current (site.emailCodes id).clock found.live = some row ∧
          Redeems cfg.codes (Server.EmailCodes.normalizeCode cfg.codes.texts presented)
            (site.emails id) row := by
  rw [← consumeCode_accepted h]
  unfold verifyEmailEnrollment
  split
  · next hoff =>
      rw [Bool.not_eq_true'] at hoff
      rw [hoff]
      exact ⟨fun h => (by cases h), fun h => (by cases h.1)⟩
  · next hon =>
      rw [Bool.not_eq_true', Bool.not_eq_false] at hon
      simp only
      split
      · next hno =>
          rw [Bool.or_eq_true, decide_eq_true_iff, Option.isNone_iff_eq_none] at hno
          refine ⟨fun h => (by cases h), fun ⟨_, hfactor, hstage⟩ => ?_⟩
          rcases hno with hnone | hne
          · rw [hnone] at hfactor
            cases hfactor
          · exact absurd hstage hne
      · next hyes =>
          rw [Bool.or_eq_true, decide_eq_true_iff, not_or, not_not,
            Option.isNone_iff_eq_none] at hyes
          refine ⟨fun _ => ⟨hon, ?_, hyes.2⟩, fun _ => rfl⟩
          exact Option.isSome_iff_ne_none.mpr hyes.1

/-- After a reset the state is known exactly when the mailbox is none: the policy
is off, or it is not a factor and no code that is out makes it one. -/
theorem reset_known_iff {out : MfaResetOut} {now : Int}
    {operators : String → Option OperatorRow} {events : List Event}
    (haccounts : site.accounts = run cfg.sessions { now, operators } events)
    (hreset : resetOperatorMfa cfg site id = .ok (out, after)) :
    KnownState cfg site.accounts.issued after id ↔
      cfg.emailPolicy = .off ∨
        (hasUsableFactor cfg site id = false ∧ ¬ Redeemable cfg site id) := by
  have h := cleared_of_reset hreset
  have hcurrent : Current site.accounts := by
    rw [haccounts]
    exact current_run (fun i hi => by cases hi) events
  have hnow : after.accounts.now = site.accounts.now := by
    rw [h.accounts]
    rfl
  have hfactor : getFactor after id = getFactor site id := by
    rw [getFactor, h.emailFactors]
    rfl
  have husable : hasUsableFactor cfg after id = hasUsableFactor cfg site id := by
    rw [hasUsableFactor, hfactor, h.emails]
    rfl
  have hfinds : ∀ later f, Finds (after.at later) id .enrollment f ↔
      Finds site id .enrollment f := by
    intro later f
    rw [Finds, Site.at, h.emailCodes]
    rfl
  have hmethods := fun later operator => @methods_cleared cfg (after.at later) id
    h.enforced h.authenticators operator
  have hsame : ∀ later, hasUsableFactor cfg (after.at later) id =
      hasUsableFactor cfg site id := fun _ => husable
  constructor
  · intro hknown
    by_cases hoff : cfg.emailPolicy = .off
    · exact Or.inl hoff
    · refine Or.inr ⟨?_, fun ⟨hsome, later, hlater, presented, f, row, hf, hrow,
        hredeems⟩ => ?_⟩
      · by_contra htrue
        rw [Bool.not_eq_false] at htrue
        have hdecision := hknown.decision _ (le_refl _) {} .emailCode
        rw [hmethods, hsame, htrue, decide_eq_true hoff] at hdecision
        cases hdecision List.mem_cons_self
      · have hrefused := hknown.enrollment later (hnow ▸ hlater) presented f
          ((hfinds later f).mpr hf)
        rw [Bool.eq_false_iff] at hrefused
        refine hrefused ((enrollment_iff ((hfinds later f).mpr hf)).mpr
          ⟨?_, ?_, row, hrow, ?_⟩)
        · rw [emailEnabled, decide_eq_true h.enforced, h.configured,
            decide_eq_true hoff]
          rfl
        · exact hfactor ▸ hsome
        · show Redeems _ _ (after.emails id) row
          rw [h.emails]
          exact hredeems
  · intro hdead
    have hmethod : ∀ later operator,
        .emailCode ∉ (decideLogin cfg (after.at later) id operator).methods := by
      intro later operator hmem
      rw [hmethods, hsame] at hmem
      have hoff : (decide (cfg.emailPolicy ≠ .off) &&
          hasUsableFactor cfg site id) = false := by
        rcases hdead with hoff | ⟨hunusable, _⟩
        · rw [hoff]
          rfl
        · rw [hunusable, Bool.and_false]
      rw [hoff] at hmem
      simp only [Bool.false_eq_true, if_false] at hmem
      split at hmem
      · cases List.mem_singleton.mp hmem
      · cases hmem
    refine ⟨h.tokens hcurrent, h.authenticators, h.unused,
      fun _ _ _ _ hselects => h.selects hselects,
      fun _ _ sid body pick hselects => ?_, fun _ _ _ _ => recovery_refused h.unused,
      fun later _ _ _ operator _ _ => email_refused (hmethod later operator),
      fun later hlater presented f hf => ?_, fun later _ operator m hm => ?_⟩
    · rw [h.selects hselects]
      exact webauthn_refused
    · rw [Bool.eq_false_iff]
      intro hverified
      obtain ⟨henabled, hsome, row, hrow, hredeems⟩ := (enrollment_iff hf).mp hverified
      rcases hdead with hoff | ⟨_, hnot⟩
      · rw [emailEnabled, hoff] at henabled
        simp at henabled
      · refine hnot ⟨hfactor ▸ hsome, later, hnow ▸ hlater, presented, f, row,
          (hfinds later f).mp hf, hrow, ?_⟩
        rw [← h.emails]
        exact hredeems
    · have hne : m ≠ .emailCode := fun heq => hmethod later operator (heq ▸ hm)
      rw [hmethods] at hm
      split at hm
      · exact absurd (List.mem_singleton.mp hm) hne
      · split at hm
        · exact List.mem_singleton.mp hm
        · cases hm

end Reset

/-! ## A mailbox that was a factor -/

def alwaysConfig : Config where
  ceremonies := ChallengeUses.sampleConfig [] []
  codes := EmailCodeBounds.sampleConfig
  upper value := value
  emailPolicy := .always

/-- An operator with one of everything but a mailbox, halfway through a login. -/
def equipped : Site where
  accounts := run {} { now := 0, operators := fun id =>
    if id = "op" then some {} else none } [.beginLogin "op"]
  emails _ := EmailCodeBounds.sampleEmail
  ceremonies :=
    { challenges :=
        [⟨0, "op", .authentication, [0], "example.test", 0, 300000000, none⟩]
      credentials :=
        [⟨0, "op", "aw", [0], -7, 0, [], "key", none, "none", false, false, none,
          none⟩]
      challengeIds := 1
      credentialIds := 1 }
  recoveryCodes := [⟨0, "op", "b", "s1ABCDE", 0, none⟩]

theorem reset_known_iff_equipped : ∃ out after,
    resetOperatorMfa alwaysConfig equipped "op" = .ok (out, after) ∧
      out = ⟨"op", 1, 1⟩ ∧
      KnownState alwaysConfig equipped.accounts.issued after "op" := by
  refine ⟨_, _, rfl, rfl, ?_⟩
  refine (@reset_known_iff alwaysConfig equipped _ _ _ _ _ _ rfl rfl).mpr
    (Or.inr ⟨rfl, fun h => ?_⟩)
  cases h.1

/-- The same operator with a mailbox that was verified, and a code in it. -/
def mailed : Site :=
  { equipped with
    emailFactors := [⟨"op", EmailCodeBounds.sampleEmail, some 0, 0⟩]
    emailCodes := fun _ =>
      { codes := [EmailCodeBounds.sampleCode 0 "123456"], ids := 1 } }

/-- The mailbox is still offered after the reset, and the code that was in it
before completes a login. -/
theorem reset_state_not_known : ∃ out after,
    resetOperatorMfa alwaysConfig mailed "op" = .ok (out, after) ∧
      (decideLogin alwaysConfig after "op" {}).methods = [.emailCode] ∧
      (completeLoginWithEmailCode alwaysConfig after "op" "sid" "123456" {}
        ⟨[EmailCodeBounds.sampleCode 0 "123456"], []⟩).1 = true ∧
      ¬ KnownState alwaysConfig mailed.accounts.issued after "op" := by
  have hmethods : ∀ after, resetOperatorMfa alwaysConfig mailed "op" =
      .ok (⟨"op", 1, 1⟩, after) →
        (decideLogin alwaysConfig after "op" {}).methods = [.emailCode] := by
    intro after h
    cases h
    decide +kernel
  refine ⟨_, _, rfl, hmethods _ rfl, by decide +kernel, fun h => ?_⟩
  have hdecision := h.decision _ (le_refl _) {} .emailCode
  rw [show (decideLogin alwaysConfig (Site.at _ _) "op" {}).methods = [.emailCode]
    from hmethods _ rfl] at hdecision
  cases hdecision List.mem_cons_self

end NodeLink.Proofs.MfaResets
