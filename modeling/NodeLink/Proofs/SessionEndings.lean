import NodeLink.Lib.Prog
import NodeLink.Server.OperatorSessions

/-!
# Session endings are final

Once a managed session has been revoked, has idled out or has passed its
ceiling it stays over, and `get_current_operator` lets no token of its chain in
any more. `get_enrollment_operator` never looks at the session, and a step-up
gives an unmanaged token a new lifetime: what the code promises holds of the
runs that stay clear of these two.
-/

namespace NodeLink.Proofs.SessionEndings

open Lib Server.OperatorSessions

variable {cfg : Settings} {s s' : State}

/-! ## Sessions that are over -/

/-- Neither revoked, nor idle for too long, nor at its ceiling. -/
def live (cfg : Settings) (s : State) (sid : String) : Bool :=
  match s.sessions sid with
  | none => false
  | some r =>
    decide (r.endedAt = none ∧
      (s.operators r.operatorId).map (·.tokenGeneration) =
        some r.tokenGeneration ∧
      s.now < r.absoluteExpiresAt ∧ s.now < idleDeadline cfg r)

theorem live_iff {sid : String} :
    live cfg s sid = true ↔ ∃ r, s.sessions sid = some r ∧ r.endedAt = none ∧
      (s.operators r.operatorId).map (·.tokenGeneration) =
        some r.tokenGeneration ∧
      s.now < r.absoluteExpiresAt ∧ s.now < idleDeadline cfg r := by
  unfold live
  cases hs : s.sessions sid with
  | none => simp only [Bool.false_eq_true, reduceCtorEq, false_and, exists_false]
  | some r =>
      rw [decide_eq_true_iff]
      constructor
      · intro h
        exact ⟨r, rfl, h⟩
      · rintro ⟨r', hr, h⟩
        rw [Option.some.inj hr]
        exact h

/-- There has been a session of this id. -/
def Started (s : State) (sid : String) : Prop :=
  ∃ i ∈ s.issued, i.origin.session = some sid

/-- What becomes of a session: it may end, and only a live one is seen. -/
structure Ages (cfg : Settings) (s : State) (sid : String)
    (r r' : OperatorSession) : Prop where
  owner : r'.operatorId = r.operatorId
  generation : r'.tokenGeneration = r.tokenGeneration
  ceiling : r'.absoluteExpiresAt = r.absoluteExpiresAt
  ended : r'.endedAt = none → r.endedAt = none
  seen : r'.lastSeenAt = r.lastSeenAt ∨ live cfg s sid = true

theorem Ages.refl {sid : String} (r : OperatorSession) : Ages cfg s sid r r :=
  ⟨rfl, rfl, rfl, fun h => h, .inl rfl⟩

theorem ages_end {sid : String} (r : OperatorSession) (now : Int)
    (reason : EndReason) : Ages cfg s sid r (r.end now reason) :=
  ⟨rfl, rfl, rfl, (fun h => by cases h), .inl rfl⟩

/-- What one request or event may do to sessions and operators. -/
structure Follows (cfg : Settings) (s s' : State) : Prop where
  now : s.now ≤ s'.now
  operators : ∀ id o, s.operators id = some o →
    ∃ o', s'.operators id = some o' ∧ o.tokenGeneration ≤ o'.tokenGeneration
  sessions : ∀ sid r', s'.sessions sid = some r' →
    (∃ r, s.sessions sid = some r ∧ Ages cfg s sid r r') ∨
      ¬ Started s sid ∧ ∃ o', s'.operators r'.operatorId = some o' ∧
        r'.tokenGeneration = o'.tokenGeneration

theorem operators_refl : ∀ id o, s.operators id = some o →
    ∃ o', s.operators id = some o' ∧ o.tokenGeneration ≤ o'.tokenGeneration :=
  fun _ o ho => ⟨o, ho, le_refl _⟩

theorem Follows.refl : Follows cfg s s where
  now := le_refl _
  operators := operators_refl
  sessions _ r' h := .inl ⟨r', h, .refl r'⟩

theorem follows_endWhere (p : String → OperatorSession → Bool)
    (reason : EndReason) : Follows cfg s (s.endWhere p reason) where
  now := le_refl _
  operators := operators_refl
  sessions sid r' h := by
    obtain ⟨r, hr, rfl⟩ := Option.map_eq_some_iff.mp h
    refine .inl ⟨r, hr, ?_⟩
    split
    · exact ages_end r _ _
    · exact .refl r

theorem follows_putSession {sid : String} {r r' : OperatorSession}
    (hr : s.sessions sid = some r) (h : Ages cfg s sid r r') :
    Follows cfg s (s.putSession sid r') where
  now := le_refl _
  operators := operators_refl
  sessions sid' q h' := by
    have hq : Function.update s.sessions sid (some r') sid' = some q := h'
    by_cases heq : sid' = sid
    · rw [heq, Function.update_self] at hq
      cases hq
      rw [heq]
      exact .inl ⟨r, hr, h⟩
    · rw [Function.update_of_ne heq] at hq
      exact .inl ⟨q, hq, .refl q⟩

theorem Follows.issue (h : Follows cfg s s') (claims : Claims) (origin : Origin) :
    Follows cfg s (s'.issue claims origin) := ⟨h.now, h.operators, h.sessions⟩

/-! ## Resolving a session -/

theorem touch_ages {sid : String} {r : OperatorSession}
    (h : live cfg s sid = true) : Ages cfg s sid r (touch cfg s.now r) := by
  unfold touch
  split
  · exact .refl r
  · exact ⟨rfl, rfl, rfl, fun h => h, .inr h⟩

/-- `resolve` gives a session only when it is live, and writes only what
sessions may become. -/
theorem resolve_spec {sid operatorId : String} {operator : OperatorRow}
    (ho : s.operators operatorId = some operator) :
    Follows cfg s (resolve cfg s sid operatorId operator).2 ∧
      (resolve cfg s sid operatorId operator).2.issued = s.issued ∧
      ((resolve cfg s sid operatorId operator).1.isSome →
        live cfg s sid = true) := by
  unfold resolve
  split
  · exact ⟨.refl, rfl, fun h => by cases h⟩
  · next r hr =>
      split
      · exact ⟨.refl, rfl, fun h => by cases h⟩
      · next howner =>
          split
          · exact ⟨.refl, rfl, fun h => by cases h⟩
          · next hended =>
              split
              · exact ⟨follows_putSession hr (ages_end r _ _), rfl,
                  fun h => by cases h⟩
              · next hgen =>
                  split
                  · exact ⟨follows_putSession hr (ages_end r _ _), rfl,
                      fun h => by cases h⟩
                  · next hceiling =>
                      split
                      · exact ⟨follows_putSession hr (ages_end r _ _), rfl,
                          fun h => by cases h⟩
                      · next hidle =>
                          have hlive : live cfg s sid = true := by
                            refine live_iff.mpr ⟨r, hr, ?_, ?_,
                              not_le.mp hceiling, not_le.mp hidle⟩
                            · exact Option.not_isSome_iff_eq_none.mp hended
                            · rw [not_not.mp howner, ho, not_not.mp hgen]
                              rfl
                          exact ⟨follows_putSession hr (touch_ages hlive), rfl,
                            fun _ => hlive⟩

/-- `get_current_operator` lets a token with a session id in only while the
session is live. -/
theorem getCurrentOperator_spec {claims : Claims} :
    Follows cfg s (getCurrentOperator cfg s claims).2 ∧
      (getCurrentOperator cfg s claims).2.issued = s.issued ∧
      ∀ caller, (getCurrentOperator cfg s claims).1 = some caller →
        timestamp s.now ≤ claims.exp ∧ claims.typ = .access ∧
        caller.record = claims.sid ∧
        ∀ sid, claims.sid = some sid → live cfg s sid = true := by
  unfold getCurrentOperator
  split
  · next hok =>
      obtain ⟨hexp, htyp⟩ := hok
      have hexp' : timestamp s.now ≤ claims.exp := of_decide_eq_true hexp
      split
      · exact ⟨.refl, rfl, fun _ h => by cases h⟩
      · next operator hop =>
          have ho : s.operators claims.sub = some operator := by
            unfold operatorForClaims at hop
            split at hop
            · cases hop
            · next o ho =>
                split at hop
                · cases hop
                · split at hop
                  · cases hop
                  · cases hop
                    exact ho
          unfold bindSession
          split
          · next hsid =>
              split
              · refine ⟨.refl, rfl, fun caller h => ?_⟩
                cases h
                exact ⟨hexp', htyp, hsid.symm, fun sid h => by
                  rw [hsid] at h
                  cases h⟩
              · exact ⟨.refl, rfl, fun _ h => by cases h⟩
          · next sid hsid =>
              obtain ⟨hfollows, hissued, hlive⟩ :=
                @resolve_spec cfg _ sid _ _ ho
              split
              · next s' hres =>
                  rw [hres] at hfollows hissued
                  exact ⟨hfollows, hissued, fun _ h => by cases h⟩
              · next r s' hres =>
                  rw [hres] at hfollows hissued hlive
                  refine ⟨hfollows, hissued, fun caller h => ?_⟩
                  cases h
                  refine ⟨hexp', htyp, hsid.symm, fun sid' h => ?_⟩
                  rw [hsid] at h
                  cases h
                  exact hlive rfl
  · exact ⟨.refl, rfl, fun _ h => by cases h⟩

theorem getEnrollmentOperator_spec {claims : Claims} :
    (getEnrollmentOperator cfg s claims).2 = s ∧
      ((getEnrollmentOperator cfg s claims).1.isSome →
        timestamp s.now ≤ claims.exp) := by
  unfold getEnrollmentOperator
  split
  · next hexp =>
      have hexp' : timestamp s.now ≤ claims.exp := of_decide_eq_true hexp
      refine ⟨?_, fun _ => hexp'⟩
      split
      · rfl
      · split
        · split
          · rfl
          · rfl
        · split
          · rfl
          · rfl
  · exact ⟨rfl, fun h => by cases h⟩

theorem getMfaPendingOperator_spec {claims : Claims} :
    (getMfaPendingOperator s claims).2 = s ∧
      ((getMfaPendingOperator s claims).1.isSome →
        claims.typ = .mfaPending) := by
  unfold getMfaPendingOperator
  split
  · next hok => exact ⟨rfl, fun _ => hok.2⟩
  · exact ⟨rfl, fun h => by cases h⟩

/-- What `get_enrollment_operator` checks of an access token. -/
def passesEnrollment (cfg : Settings) (s : State) (claims : Claims) : Bool :=
  unexpired s.now claims && (operatorForClaims s claims).isSome &&
    !(s.enrolled claims.sub && decide (cfg.mfaEnforcement ≠ .off) &&
      !sessionIsMfaVerified claims.amr)

theorem passesEnrollment_of_isSome {claims : Claims}
    (htyp : claims.typ = .access)
    (h : (getEnrollmentOperator cfg s claims).1.isSome = true) :
    passesEnrollment cfg s claims = true := by
  unfold getEnrollmentOperator at h
  split at h
  · next hexp =>
      split at h
      · cases h
      · next operator hoperator =>
          simp only [htyp] at h
          split at h
          · cases h
          · next hmfa =>
              rw [passesEnrollment, hexp, hoperator,
                Bool.eq_false_iff.mpr hmfa]
              rfl
  · cases h

/-- Any dependency, by what it leaves behind. -/
theorem authenticate_follows {claims : Claims} {dep : Dependency} :
    Follows cfg s (authenticate cfg s claims dep).2 ∧
      (authenticate cfg s claims dep).2.issued = s.issued := by
  cases dep with
  | currentOperator =>
      exact ⟨getCurrentOperator_spec.1, getCurrentOperator_spec.2.1⟩
  | mfaPendingOperator =>
      rw [authenticate, getMfaPendingOperator_spec.1]
      exact ⟨.refl, rfl⟩
  | enrollmentOperator =>
      rw [authenticate, getEnrollmentOperator_spec.1]
      exact ⟨.refl, rfl⟩

/-! ## What one step does -/

theorem follows_editOperator (id : String) (f : OperatorRow → OperatorRow)
    (hf : ∀ o, o.tokenGeneration ≤ (f o).tokenGeneration) :
    Follows cfg s (s.editOperator id f) where
  now := le_refl _
  operators id' o ho := by
    show ∃ o', Function.update s.operators id ((s.operators id).map f) id' =
      some o' ∧ _
    by_cases heq : id' = id
    · rw [heq] at ho ⊢
      rw [Function.update_self, ho]
      exact ⟨f o, rfl, hf o⟩
    · rw [Function.update_of_ne heq]
      exact ⟨o, ho, le_refl _⟩
  sessions _ r' h := .inl ⟨r', h, .refl r'⟩

theorem follows_refreshSession (token : Issued) :
    Follows cfg s (refreshSession cfg s token) := by
  obtain ⟨hfollows, _, _⟩ :=
    @getCurrentOperator_spec cfg s token.claims
  unfold refreshSession
  split
  · next s' hauth =>
      rw [hauth] at hfollows
      exact hfollows
  · next caller s' hauth =>
      rw [hauth] at hfollows
      split
      · exact .refl
      · exact hfollows.issue _ _

theorem follows_completeStepUp (token : Issued) :
    Follows cfg s (completeStepUp cfg s token) := by
  obtain ⟨hfollows, _, _⟩ :=
    @getCurrentOperator_spec cfg s token.claims
  unfold completeStepUp
  split
  · next s' hauth =>
      rw [hauth] at hfollows
      exact hfollows
  · next caller s' hauth =>
      rw [hauth] at hfollows
      exact hfollows.issue _ _

/-- A new session has an id of its own. -/
theorem follows_createSession {sid operatorId : String} {operator : OperatorRow}
    (ho : s.operators operatorId = some operator)
    (hnew : ¬ Started s sid) (isBreakGlass : Bool) :
    Follows cfg s (createSession cfg s sid operatorId operator isBreakGlass) where
  now := le_refl _
  operators := operators_refl
  sessions sid' r' h := by
    obtain ⟨r, hrow, rfl⟩ := Option.map_eq_some_iff.mp h
    have hr : Function.update s.sessions sid
        (some (newSession cfg s.now operatorId operator isBreakGlass)) sid' =
        some r := hrow
    by_cases heq : sid' = sid
    · rw [heq, Function.update_self] at hr
      cases hr
      rw [heq]
      refine .inr ⟨hnew, operator, ?_⟩
      split
      · exact ⟨ho, rfl⟩
      · exact ⟨ho, rfl⟩
    · rw [Function.update_of_ne heq] at hr
      refine .inl ⟨r, hr, ?_⟩
      split
      · exact ages_end r _ _
      · exact .refl r

theorem follows_completeLogin (operatorId sid : String) (amr : List AuthMethod)
    (stepUp isBreakGlass : Bool) :
    Follows cfg s (completeLogin cfg s operatorId sid amr stepUp isBreakGlass) := by
  unfold completeLogin
  split
  · exact .refl
  · next operator ho =>
      split
      · exact .refl
      · split
        · exact .refl
        · next hfresh =>
            rw [not_or] at hfresh
            have hnew : ¬ Started s sid := by
              rintro ⟨i, hi, horigin⟩
              exact hfresh.2 (List.any_eq_true.mpr
                ⟨i, hi, decide_eq_true horigin⟩)
            exact (follows_createSession ho hnew isBreakGlass).issue _ _

theorem step_follows (e : Event) : Follows cfg s (step cfg s e) := by
  cases e with
  | tick elapsed =>
      refine ⟨?_, operators_refl, fun _ r' h => .inl ⟨r', h, .refl r'⟩⟩
      show s.now ≤ s.now + elapsed
      omega
  | beginLogin operatorId =>
      show Follows cfg s (beginLogin cfg s operatorId)
      unfold beginLogin
      split
      · exact .refl
      · split
        · exact .refl
        · exact Follows.refl.issue _ _
  | completeLogin operatorId sid amr stepUp isBreakGlass =>
      exact follows_completeLogin operatorId sid amr stepUp isBreakGlass
  | request token dep fails =>
      have hauth := (@authenticate_follows cfg s token.claims dep).1
      rw [step]
      split
      · split
        · next s' hs' =>
            rw [hs'] at hauth
            exact hauth
        · next caller s' hs' =>
            rw [hs'] at hauth
            split
            · exact .refl
            · exact hauth
      · exact .refl
  | refresh token =>
      rw [step]
      split
      · exact follows_refreshSession token
      · exact .refl
  | stepUp token =>
      rw [step]
      split
      · exact follows_completeStepUp token
      · exact .refl
  | revoke sid byAdmin => exact follows_endWhere _ _
  | revokeAll operatorId reason exceptSession => exact follows_endWhere _ _
  | bumpGeneration operatorId =>
      exact follows_editOperator _ _ fun o => Nat.le_succ _
  | createOperator operatorId role =>
      rw [step]
      split
      · exact .refl
      · next hnone =>
          refine ⟨le_refl _, fun id o ho => ?_,
            fun _ r' h => .inl ⟨r', h, .refl r'⟩⟩
          have hne : id ≠ operatorId := by
            rintro rfl
            rw [ho] at hnone
            exact hnone rfl
          refine ⟨o, ?_, le_refl _⟩
          show Function.update s.operators operatorId _ id = some o
          rw [Function.update_of_ne hne]
          exact ho
  | editOperator operatorId role disabled =>
      exact follows_editOperator _ _ fun o => le_refl _
  | setEnrolled operatorId enrolled =>
      exact ⟨le_refl _, operators_refl, fun _ r' h => .inl ⟨r', h, .refl r'⟩⟩
  | expireLapsed => exact follows_endWhere _ _
  | purgeEnded cutoff =>
      refine ⟨le_refl _, operators_refl, fun sid r' h => .inl ⟨r', ?_, .refl r'⟩⟩
      exact (Option.filter_eq_some_iff.mp h).1

/-! ## Over is over -/

/-- A session's operator is there, and not behind the session. -/
def Owned (s : State) : Prop :=
  ∀ sid r, s.sessions sid = some r →
    ∃ o, s.operators r.operatorId = some o ∧
      r.tokenGeneration ≤ o.tokenGeneration

theorem Owned.follows (h : Owned s) (hf : Follows cfg s s') : Owned s' := by
  intro sid r' hr'
  rcases hf.sessions sid r' hr' with ⟨r, hr, hages⟩ | ⟨_, o', ho', hgen⟩
  · obtain ⟨o, ho, hle⟩ := h sid r hr
    obtain ⟨o', ho', hle'⟩ := hf.operators _ o ho
    rw [← hages.owner] at ho'
    rw [← hages.generation] at hle
    exact ⟨o', ho', hle.trans hle'⟩
  · exact ⟨o', ho', le_of_eq hgen⟩

/-- What is live now was live before, if it was there at all. -/
theorem live_of_follows (h : Owned s) (hf : Follows cfg s s') {sid : String}
    (hs : Started s sid) (hlive : live cfg s' sid = true) :
    live cfg s sid = true := by
  obtain ⟨r', hr', hended, hgen, hceiling, hidle⟩ := live_iff.mp hlive
  rcases hf.sessions sid r' hr' with ⟨r, hr, hages⟩ | ⟨hnew, _⟩
  · rcases hages.seen with hseen | hseen
    · have hnow := hf.now
      obtain ⟨o, ho, hle⟩ := h sid r hr
      obtain ⟨o', ho', hle'⟩ := hf.operators _ o ho
      rw [hages.owner, ho', hages.generation] at hgen
      have hsame : o'.tokenGeneration = r.tokenGeneration :=
        Option.some.inj hgen
      refine live_iff.mpr ⟨r, hr, hages.ended hended, ?_, ?_, ?_⟩
      · rw [ho]
        show some o.tokenGeneration = _
        rw [Option.some.injEq]
        omega
      · rw [hages.ceiling] at hceiling
        omega
      · rw [idleDeadline, hseen] at hidle
        rw [idleDeadline]
        omega
    · exact hseen
  · exact absurd hs hnew

/-! ## Minting -/

/-- How a token may come into being. -/
inductive Minted (cfg : Settings) (s : State) : Event → Issued → Prop where
  | pending {operatorId i} (h : i.claims.typ = .mfaPending) :
      Minted cfg s (.beginLogin operatorId) i
  | login {operatorId sid amr stepUp isBreakGlass i}
      (horigin : i.origin.session = some sid) (hsid : i.claims.sid = some sid) :
      Minted cfg s (.completeLogin operatorId sid amr stepUp isBreakGlass) i
  | refresh {token i} (h : token ∈ s.issued) (htyp : token.claims.typ = .access)
      (horigin : i.origin = token.origin) {sid : String}
      (hold : token.claims.sid = some sid) (hsid : i.claims.sid = some sid) :
      Minted cfg s (.refresh token) i
  | stepUp {token i} (h : token ∈ s.issued) (htyp : token.claims.typ = .access)
      (horigin : i.origin = token.origin) (hsid : i.claims.sid = token.claims.sid)
      (hexp : i.claims.exp = accessExpiry cfg s.now) :
      Minted cfg s (.stepUp token) i

theorem issued_refreshSession {token : Issued} (h : token ∈ s.issued) :
    (refreshSession cfg s token).issued = s.issued ∨
      ∃ i, (refreshSession cfg s token).issued = s.issued ++ [i] ∧
        Minted cfg s (.refresh token) i := by
  obtain ⟨_, hissued, hcaller⟩ :=
    @getCurrentOperator_spec cfg s token.claims
  unfold refreshSession
  split
  · next s' hauth =>
      rw [hauth] at hissued
      exact .inl hissued
  · next caller s' hauth =>
      rw [hauth] at hissued hcaller
      obtain ⟨_, htyp, hrecord, _⟩ := hcaller caller rfl
      split
      · exact .inl rfl
      · next sid hsid =>
          rw [hsid] at hrecord
          refine .inr ⟨_, congrArg (· ++ [_]) hissued, ?_⟩
          exact .refresh h htyp rfl hrecord.symm rfl

theorem issued_completeStepUp {token : Issued} (h : token ∈ s.issued) :
    (completeStepUp cfg s token).issued = s.issued ∨
      ∃ i, (completeStepUp cfg s token).issued = s.issued ++ [i] ∧
        Minted cfg s (.stepUp token) i := by
  obtain ⟨_, hissued, hcaller⟩ :=
    @getCurrentOperator_spec cfg s token.claims
  unfold completeStepUp
  split
  · next s' hauth =>
      rw [hauth] at hissued
      exact .inl hissued
  · next caller s' hauth =>
      rw [hauth] at hissued hcaller
      obtain ⟨_, htyp, hrecord, _⟩ := hcaller caller rfl
      refine .inr ⟨_, congrArg (· ++ [_]) hissued, ?_⟩
      exact .stepUp h htyp rfl hrecord rfl

/-- A step issues one token at most. -/
theorem step_issued (e : Event) :
    (step cfg s e).issued = s.issued ∨
      ∃ i, (step cfg s e).issued = s.issued ++ [i] ∧ Minted cfg s e i := by
  cases e with
  | beginLogin operatorId =>
      rw [step, beginLogin]
      split
      · exact .inl rfl
      · split
        · exact .inl rfl
        · exact .inr ⟨_, rfl, .pending rfl⟩
  | completeLogin operatorId sid amr stepUp isBreakGlass =>
      rw [step, completeLogin]
      split
      · exact .inl rfl
      · split
        · exact .inl rfl
        · split
          · exact .inl rfl
          · exact .inr ⟨_, rfl, .login rfl rfl⟩
  | request token dep fails =>
      have hauth := (@authenticate_follows cfg s token.claims dep).2
      rw [step]
      refine .inl ?_
      split
      · split
        · next s' hs' =>
            rw [hs'] at hauth
            exact hauth
        · next caller s' hs' =>
            rw [hs'] at hauth
            split
            · rfl
            · exact hauth
      · rfl
  | refresh token =>
      rw [step]
      split
      · next h => exact issued_refreshSession h
      · exact .inl rfl
  | stepUp token =>
      rw [step]
      split
      · next h => exact issued_completeStepUp h
      · exact .inl rfl
  | createOperator operatorId role =>
      rw [step]
      split
      · exact .inl rfl
      · exact .inl rfl
  | tick elapsed => exact .inl rfl
  | revoke sid byAdmin => exact .inl rfl
  | revokeAll operatorId reason exceptSession => exact .inl rfl
  | bumpGeneration operatorId => exact .inl rfl
  | editOperator operatorId role disabled => exact .inl rfl
  | setEnrolled operatorId enrolled => exact .inl rfl
  | expireLapsed => exact .inl rfl
  | purgeEnded cutoff => exact .inl rfl

theorem issued_step_mono {e : Event} {i : Issued} (h : i ∈ s.issued) :
    i ∈ (step cfg s e).issued := by
  rcases @step_issued cfg s e with heq | ⟨_, heq, _⟩
  · rw [heq]
    exact h
  · rw [heq]
    exact List.mem_append_left _ h

/-! ## Runs that stay clear of the two gaps -/

/-- An access token that the enrolment endpoints have no other reason to refuse
comes to them only while its session is live, and an unmanaged one is not stepped
up to a later expiry than it has. -/
def Clear (cfg : Settings) (s : State) : Event → Prop
  | .request token .enrollmentOperator _ =>
    token.claims.typ = .access → passesEnrollment cfg s token.claims = true →
      ∀ sid, token.claims.sid = some sid → live cfg s sid = true
  | .stepUp token =>
    token.claims.sid = none → accessExpiry cfg s.now ≤ token.claims.exp
  | _ => True

/-- Each event of a run is clear where it happens. -/
def EachClear (cfg : Settings) (s : State) : List Event → Prop
  | [] => True
  | e :: events => Clear cfg s e ∧ EachClear cfg (step cfg s e) events

/-- Access tokens carry the session they began with, and unmanaged ones last
no longer than one lifetime from their login. -/
def Bounded (cfg : Settings) (s : State) : Prop :=
  ∀ i ∈ s.issued, i.claims.typ = .access →
    i.origin.session = i.claims.sid ∧
      (i.claims.sid = none → i.claims.exp ≤ accessExpiry cfg i.origin.login)

theorem Bounded.step {e : Event} (h : Bounded cfg s) (he : Clear cfg s e) :
    Bounded cfg (step cfg s e) := by
  rcases @step_issued cfg s e with heq | ⟨i, heq, hminted⟩
  · intro j hj
    rw [heq] at hj
    exact h j hj
  · intro j hj htyp
    rw [heq, List.mem_append, List.mem_singleton] at hj
    rcases hj with hj | rfl
    · exact h j hj htyp
    · cases hminted with
      | pending hpending =>
          rw [htyp] at hpending
          cases hpending
      | login horigin hsid =>
          rw [hsid]
          exact ⟨horigin, fun hnone => by cases hnone⟩
      | refresh htoken htyp' horigin hold hsid =>
          rw [hsid, horigin, ← hold]
          refine ⟨(h _ htoken htyp').1, fun hnone => ?_⟩
          rw [hold] at hnone
          cases hnone
      | stepUp htoken htyp' horigin hsid hexp =>
          rw [hsid, horigin]
          refine ⟨(h _ htoken htyp').1, fun hnone => ?_⟩
          rw [hexp]
          exact (he hnone).trans ((h _ htoken htyp').2 hnone)

/-- A deployment that starts to keep sessions: there are none yet, and the
tokens in hand are unmanaged, each good for one lifetime from its login. -/
structure Deployed (cfg : Settings) (s : State) : Prop where
  sessions : ∀ sid, s.sessions sid = none
  issued : ∀ i ∈ s.issued, i.origin.session = none ∧ i.claims.sid = none ∧
    i.claims.exp ≤ accessExpiry cfg i.origin.login

structure Good (cfg : Settings) (s : State) : Prop where
  owned : Owned s
  bounded : Bounded cfg s

theorem Deployed.good (h : Deployed cfg s) : Good cfg s where
  owned sid r hr := by
    rw [h.sessions sid] at hr
    cases hr
  bounded i hi _ := by
    obtain ⟨horigin, hsid, hexp⟩ := h.issued i hi
    exact ⟨horigin.trans hsid.symm, fun _ => hexp⟩

theorem Good.step {e : Event} (h : Good cfg s) (he : Clear cfg s e) :
    Good cfg (step cfg s e) :=
  ⟨h.owned.follows (step_follows e), h.bounded.step he⟩

theorem run_cons (e : Event) (events : List Event) :
    run cfg s (e :: events) = run cfg (step cfg s e) events := rfl

theorem run_append (before after : List Event) :
    run cfg s (before ++ after) = run cfg (run cfg s before) after :=
  List.foldl_append

theorem eachClear_append {before after : List Event} :
    EachClear cfg s (before ++ after) ↔
      EachClear cfg s before ∧ EachClear cfg (run cfg s before) after := by
  induction before generalizing s with
  | nil => exact ⟨fun h => ⟨trivial, h⟩, fun h => h.2⟩
  | cons e before ih =>
      rw [List.cons_append, EachClear, EachClear, ih, run_cons, and_assoc]

theorem Good.run {events : List Event} (h : Good cfg s)
    (he : EachClear cfg s events) : Good cfg (run cfg s events) := by
  induction events generalizing s with
  | nil => exact h
  | cons e events ih => exact ih (h.step he.1) he.2

/-- Over a run, too, what was over stays over. -/
theorem live_of_run {events : List Event} (h : Owned s) {sid : String}
    (hs : Started s sid) (hlive : live cfg (run cfg s events) sid = true) :
    live cfg s sid = true := by
  induction events generalizing s with
  | nil => exact hlive
  | cons e events ih =>
      obtain ⟨i, hi, horigin⟩ := hs
      have hfollows := @step_follows cfg s e
      exact live_of_follows h hfollows ⟨i, hi, horigin⟩
        (ih (h.follows hfollows) ⟨i, issued_step_mono hi, horigin⟩ hlive)

/-! ## What is accepted -/

/-- What is promised of a token at an endpoint: the session its chain began
with was live `before`, and an unmanaged chain has not outlived its login by
more than one lifetime. -/
def Final (cfg : Settings) (before s : State) (token : Issued) : Prop :=
  (∀ sid, token.origin.session = some sid → Started before sid →
    live cfg before sid = true) ∧
    (token.origin.session = none →
      timestamp s.now ≤ accessExpiry cfg token.origin.login)

theorem accepted_spec {token : Issued} {dep : Dependency} {fails : Bool}
    (hgood : Good cfg s) (htoken : token ∈ s.issued)
    (htyp : token.claims.typ = .access)
    (hclear : Clear cfg s (.request token dep fails))
    (h : accepts cfg s token.claims dep = true) :
    (∀ sid, token.origin.session = some sid → live cfg s sid = true) ∧
      (token.origin.session = none →
        timestamp s.now ≤ accessExpiry cfg token.origin.login) := by
  obtain ⟨horigin, hbound⟩ := hgood.bounded token htoken htyp
  rw [horigin]
  cases dep with
  | currentOperator =>
      obtain ⟨caller, hcaller⟩ := Option.isSome_iff_exists.mp h
      obtain ⟨hexp, _, _, hlive⟩ := getCurrentOperator_spec.2.2 caller hcaller
      exact ⟨hlive, fun hnone => hexp.trans (hbound hnone)⟩
  | mfaPendingOperator =>
      have hpending := getMfaPendingOperator_spec.2 h
      rw [htyp] at hpending
      cases hpending
  | enrollmentOperator =>
      have hexp := getEnrollmentOperator_spec.2 h
      exact ⟨hclear htyp (passesEnrollment_of_isSome htyp h),
        fun hnone => hexp.trans (hbound hnone)⟩

/-- In every run that stays clear of the two gaps, a session that has been
revoked, has idled out or has passed its ceiling is over for every token of its
chain, and no chain of an unmanaged token is accepted past one lifetime. -/
theorem session_endings_final_while (hs : Deployed cfg s)
    {before after : List Event} (h : EachClear cfg s (before ++ after))
    {token : Issued} (htoken : token ∈ (run cfg s (before ++ after)).issued)
    (htyp : token.claims.typ = .access) {dep : Dependency} {fails : Bool}
    (hclear : Clear cfg (run cfg s (before ++ after)) (.request token dep fails))
    (haccepts : accepts cfg (run cfg s (before ++ after)) token.claims dep =
      true) :
    Final cfg (run cfg s before) (run cfg s (before ++ after)) token := by
  have hgood := hs.good.run h
  obtain ⟨hlive, hbound⟩ := accepted_spec hgood htoken htyp hclear haccepts
  refine ⟨fun sid hsid hstarted => ?_, hbound⟩
  have hbefore := hs.good.run (eachClear_append.mp h).1
  have hend := hlive sid hsid
  rw [run_append] at hend
  exact live_of_run hbefore.owned hstarted hend

/-! ## Runs of one operator -/

/-- One administrator, and no session yet. -/
def sampleState (issued : List Issued) : State where
  now := 0
  operators := fun id => if id = "op" then some {} else none
  issued := issued

def signIn : Event := .completeLogin "op" "s1" [.password] false false

def signedIn : Issued :=
  ⟨createAccessToken {} 0 "op" 0 [.password] none (some "s1"), ⟨some "s1", 0⟩⟩

/-- A token from before there were sessions. -/
def legacyToken : Issued :=
  ⟨createAccessToken {} 0 "op" 0 [.password] none none, ⟨none, 0⟩⟩

/-- What the last second of `legacyToken` is traded in for. -/
def renewedToken : Issued :=
  ⟨createAccessToken {} (seconds 3599) "op" 0 [.password, .webauthn]
    (some (seconds 3599)) none, ⟨none, 0⟩⟩

theorem deployed_sampleState : Deployed {} (sampleState []) where
  sessions _ := rfl
  issued _ hi := absurd hi List.not_mem_nil

theorem session_endings_final_while_signIn :
    Final {} (run {} (sampleState []) [signIn])
      (run {} (sampleState []) [signIn, .tick 60000000]) signedIn := by
  refine @session_endings_final_while {} (sampleState []) deployed_sampleState
    [signIn] [.tick 60000000] ⟨trivial, trivial, trivial⟩ signedIn ?_ rfl
    .currentOperator false trivial ?_
  · decide +kernel
  · decide +kernel

/-- The enrolment endpoints take the token of a session its owner has revoked,
and a step-up carries an unmanaged token past its lifetime. -/
theorem session_endings_not_final :
    (∃ (cfg : Settings) (s : State) (before : List Event) (token : Issued),
      Deployed cfg s ∧ token ∈ (run cfg s before).issued ∧
        token.claims.typ = .access ∧
        token.origin.session = some "s1" ∧ Started (run cfg s before) "s1" ∧
        live cfg (run cfg s before) "s1" = false ∧
        accepts cfg (run cfg s before) token.claims .enrollmentOperator =
          true) ∧
      ∃ (cfg : Settings) (s : State) (events : List Event) (token : Issued),
        Deployed cfg s ∧ token ∈ (run cfg s events).issued ∧
          token.claims.typ = .access ∧ token.origin.session = none ∧
          accessExpiry cfg token.origin.login < timestamp (run cfg s events).now ∧
          accepts cfg (run cfg s events) token.claims .currentOperator =
            true := by
  constructor
  · refine ⟨{}, sampleState [], [signIn, .revoke "s1" false], signedIn,
      deployed_sampleState, ?_, rfl, rfl, ⟨signedIn, ?_, rfl⟩, ?_, ?_⟩
    · decide +kernel
    · decide +kernel
    · decide +kernel
    · decide +kernel
  · refine ⟨{}, sampleState [legacyToken],
      [.tick 3599000000, .stepUp legacyToken, .tick 3599000000], renewedToken,
      ⟨fun _ => rfl, ?_⟩, ?_, rfl, rfl, ?_, ?_⟩
    · intro i hi
      rw [List.mem_singleton.mp hi]
      exact ⟨rfl, rfl, le_refl _⟩
    · decide +kernel
    · decide +kernel
    · decide +kernel

end NodeLink.Proofs.SessionEndings
