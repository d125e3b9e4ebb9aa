import NodeLink.Lib.Choice
import NodeLink.Server.OperatorSessions

/-!
# Which sessions the throttle cuts short

The idle deadline counts from the last-seen time that is stored, and a request
that comes soon after a stored one is not stored itself. So a pause after such
a request is measured from too early an instant. A session lives on through
requests that keep the idle timeout exactly when each of them also comes sooner
than the timeout after a request that was stored.
-/

namespace NodeLink.Proofs.IdleSessions

open Lib Server.OperatorSessions

/-! ## Requests on one session -/

/-- A request that carries the session's id. What it wrote is rolled back when
its handler fails. -/
structure Request where
  time : Int
  commits : Bool := true
  deriving DecidableEq, Repr

section Requests

variable (cfg : Settings) (sid operatorId : String)
  (operator : Server.OperatorSessions.OperatorRow)

/-- What `resolve` answers a request, and what it leaves of the table. -/
def answer (s : State) (request : Request) : Option OperatorSession × State :=
  match resolve cfg { s with now := request.time } sid operatorId operator with
  | (none, s') => (none, s')
  | (some session, s') => (some session, if request.commits then s' else s)

/-- The state after the first requests of a sequence. -/
def after (s : State) (requests : Nat → Request) : Nat → State
  | 0 => s
  | n + 1 =>
    (answer cfg sid operatorId operator (after s requests n) (requests n)).2

/-- The request is accepted. -/
def Accepted (s : State) (requests : Nat → Request) (n : Nat) : Prop :=
  (answer cfg sid operatorId operator
    (after cfg sid operatorId operator s requests n)
    (requests n)).1.isSome = true

/-- A session that is the operator's and has not been ended or revoked. -/
structure Live (s : State) (session : OperatorSession) : Prop where
  row : s.sessions sid = some session
  own : session.operatorId = operatorId
  notEnded : session.endedAt = none
  generation : session.tokenGeneration = operator.tokenGeneration

/-- The requests, and before them the one that the session has stored. -/
def visits (session : OperatorSession) (requests : Nat → Request) :
    Nat → Request
  | 0 => ⟨session.lastSeenAt, true⟩
  | n + 1 => requests n

def times (session : OperatorSession) (requests : Nat → Request) (n : Nat) :
    Int :=
  (visits session requests n).time

/-- The first requests come one after the other, each sooner than the idle
timeout after the one before it, and before the absolute ceiling. -/
structure Paced (session : OperatorSession) (requests : Nat → Request)
    (n : Nat) : Prop where
  inOrder : ∀ k < n, times session requests k ≤ times session requests (k + 1)
  gaps : ∀ k < n, times session requests (k + 1) - times session requests k <
    seconds cfg.adminSessionIdleTimeoutSeconds
  ceiling : ∀ k < n, (requests k).time < session.absoluteExpiresAt

/-- The requests whose time is stored: of those that commit, the first ones
first, each that comes no sooner than the write interval after another. -/
def Stored (session : OperatorSession) (requests : Nat → Request) :
    Nat → Prop :=
  KeptApart (times session requests)
    (seconds cfg.adminSessionLastSeenWriteIntervalSeconds)
    fun n => (visits session requests n).commits = true

/-- The request comes sooner than the idle timeout after a stored one. -/
def NearStored (session : OperatorSession) (requests : Nat → Request)
    (n : Nat) : Prop :=
  ∃ i ≤ n, Stored cfg session requests i ∧
    (requests n).time - times session requests i <
      seconds cfg.adminSessionIdleTimeoutSeconds

end Requests

/-! ## One request -/

section OneRequest

variable {cfg : Settings} {sid operatorId : String}
  {operator : Server.OperatorSessions.OperatorRow} {s : State}
  {session : OperatorSession} {request : Request}

/-- Before the absolute ceiling, only the idle timeout refuses a request. -/
theorem answer_live (hlive : Live sid operatorId operator s session)
    (hceiling : request.time < session.absoluteExpiresAt) :
    answer cfg sid operatorId operator s request =
      if idleDeadline cfg session ≤ request.time then
        (none, { s with now := request.time }.putSession sid
          (session.end request.time .idleTimeout))
      else
        (some (touch cfg request.time session),
          if request.commits then
            { s with now := request.time }.putSession sid
              (touch cfg request.time session)
          else s) := by
  obtain ⟨hrow, hown, hopen, hgeneration⟩ := hlive
  rw [answer, resolve]
  simp only [hrow, hown, hopen, hgeneration, ne_eq, not_true_eq_false, if_false,
    Option.isSome_none, Bool.false_eq_true, not_le_of_gt hceiling]
  by_cases hidle : idleDeadline cfg session ≤ request.time
  · simp only [if_pos hidle]
  · simp only [if_neg hidle]

theorem answer_isSome_iff (hlive : Live sid operatorId operator s session)
    (hceiling : request.time < session.absoluteExpiresAt) :
    (answer cfg sid operatorId operator s request).1.isSome = true ↔
      request.time - session.lastSeenAt <
        seconds cfg.adminSessionIdleTimeoutSeconds := by
  rw [answer_live hlive hceiling]
  by_cases hidle : idleDeadline cfg session ≤ request.time
  · rw [if_pos hidle]
    rw [idleDeadline] at hidle
    exact iff_of_false nofun (by omega)
  · rw [if_neg hidle]
    rw [idleDeadline] at hidle
    exact iff_of_true rfl (by omega)

/-- A session that is seen is as live as before. -/
theorem live_touch (hlive : Live sid operatorId operator s session) :
    Live sid operatorId operator
      ({ s with now := request.time }.putSession sid
        (touch cfg request.time session)) (touch cfg request.time session) := by
  obtain ⟨-, hown, hopen, hgeneration⟩ := hlive
  refine ⟨Function.update_self .., ?_, ?_, ?_⟩
  all_goals
    rw [touch]
    split
    all_goals assumption

/-- The session after a request that is accepted: its last-seen time has moved
if the request commits and the write interval has passed. -/
def seen (cfg : Settings) (session : OperatorSession) (request : Request) :
    OperatorSession :=
  if request.commits = true ∧
      seconds cfg.adminSessionLastSeenWriteIntervalSeconds ≤
        request.time - session.lastSeenAt then
    { session with lastSeenAt := request.time }
  else session

theorem seen_eq :
    seen cfg session request =
      if request.commits then touch cfg request.time session else session := by
  rw [seen, touch]
  cases request.commits with
  | false => rfl
  | true =>
      by_cases hsoon : request.time - session.lastSeenAt <
          seconds cfg.adminSessionLastSeenWriteIntervalSeconds
      · rw [if_neg (fun h => not_le_of_gt hsoon h.2), if_pos rfl, if_pos hsoon]
      · rw [if_pos ⟨rfl, not_lt.mp hsoon⟩, if_pos rfl, if_neg hsoon]

theorem live_answer (hlive : Live sid operatorId operator s session)
    (hceiling : request.time < session.absoluteExpiresAt)
    (haccepted :
      (answer cfg sid operatorId operator s request).1.isSome = true) :
    Live sid operatorId operator
      (answer cfg sid operatorId operator s request).2
      (seen cfg session request) := by
  rw [answer_live hlive hceiling] at haccepted ⊢
  by_cases hidle : idleDeadline cfg session ≤ request.time
  · rw [if_pos hidle] at haccepted
    exact nomatch haccepted
  · rw [if_neg hidle, seen_eq]
    cases request.commits with
    | false => exact hlive
    | true => exact live_touch hlive

end OneRequest

/-! ## A sequence of requests -/

section Sequence

variable {cfg : Settings} {sid operatorId : String}
  {operator : Server.OperatorSessions.OperatorRow} {s : State}
  {session : OperatorSession} {requests : Nat → Request} {n : Nat}

theorem Paced.shorter (h : Paced cfg session requests (n + 1)) :
    Paced cfg session requests n :=
  ⟨fun k hk => h.inOrder k (Nat.lt_succ_of_lt hk),
    fun k hk => h.gaps k (Nat.lt_succ_of_lt hk),
    fun k hk => h.ceiling k (Nat.lt_succ_of_lt hk)⟩

theorem Paced.sorted (h : Paced cfg session requests n) (i k : Nat)
    (hik : i ≤ k) (hkn : k ≤ n) :
    times session requests i ≤ times session requests k := by
  induction k, hik using Nat.le_induction with
  | base => exact le_refl _
  | succ k hik ih =>
      exact le_trans (ih (Nat.le_of_succ_le hkn)) (h.inOrder k hkn)

theorem latest_zero : Latest (Stored cfg session requests) 0 0 := by
  refine ⟨?_, le_refl _, fun i hi _ => hi⟩
  rw [Stored, KeptApart, chosen_iff]
  exact ⟨rfl, fun i hi => absurd hi.1 (Nat.not_lt_zero i)⟩

/-- As long as all requests are accepted, the row holds the time of the latest
request that is stored. -/
theorem live_after (hlive : Live sid operatorId operator s session)
    (hpaced : Paced cfg session requests n)
    (haccepted : ∀ k < n, Accepted cfg sid operatorId operator s requests k) :
    ∃ j, Latest (Stored cfg session requests) n j ∧
      Live sid operatorId operator
        (after cfg sid operatorId operator s requests n)
        { session with lastSeenAt := times session requests j } := by
  induction n with
  | zero => exact ⟨0, latest_zero, hlive⟩
  | succ n ih =>
      obtain ⟨j, hlatest, hrow⟩ :=
        ih hpaced.shorter fun k hk => haccepted k (Nat.lt_succ_of_lt hk)
      have hceiling : (requests n).time < session.absoluteExpiresAt :=
        hpaced.ceiling n (Nat.lt_succ_self n)
      have hnext :=
        live_answer hrow hceiling (haccepted n (Nat.lt_succ_self n))
      have hchosen := keptApart_succ_iff hlatest hpaced.shorter.sorted
      by_cases hstored : Stored cfg session requests (n + 1)
      · have hseen : seen cfg
            { session with lastSeenAt := times session requests j }
            (requests n) =
              { session with lastSeenAt := times session requests (n + 1) } :=
          if_pos (hchosen.mp hstored)
        refine ⟨n + 1, Latest.succ_mem hstored, ?_⟩
        rw [← hseen]
        exact hnext
      · have hseen : seen cfg
            { session with lastSeenAt := times session requests j }
            (requests n) =
              { session with lastSeenAt := times session requests j } :=
          if_neg fun h => hstored (hchosen.mpr h)
        refine ⟨j, hlatest.succ_of_not_mem hstored, ?_⟩
        rw [← hseen]
        exact hnext

/-- After requests that are all accepted, the next one is accepted exactly when
it comes soon enough after a stored one. -/
theorem accepted_iff_nearStored (hlive : Live sid operatorId operator s session)
    (hpaced : Paced cfg session requests (n + 1))
    (haccepted : ∀ k < n, Accepted cfg sid operatorId operator s requests k) :
    Accepted cfg sid operatorId operator s requests n ↔
      NearStored cfg session requests n := by
  obtain ⟨j, hlatest, hrow⟩ := live_after hlive hpaced.shorter haccepted
  rw [Accepted, answer_isSome_iff hrow (hpaced.ceiling n (Nat.lt_succ_self n)),
    NearStored, hlatest.near_iff hpaced.shorter.sorted]

/-- Gaps that leave the write interval to the idle timeout are short enough. A
session whose last-seen time is always stored keeps the timeout itself. -/
theorem nearStored_of_short_gaps (hpaced : Paced cfg session requests n)
    (hcommits : ∀ k < n, (requests k).commits = true)
    (hgaps : ∀ k < n,
      times session requests (k + 1) - times session requests k +
          seconds cfg.adminSessionLastSeenWriteIntervalSeconds ≤
        seconds cfg.adminSessionIdleTimeoutSeconds) :
    ∀ k < n, NearStored cfg session requests k := by
  intro k hk
  have hgap : (requests k).time - times session requests k <
      seconds cfg.adminSessionIdleTimeoutSeconds := hpaced.gaps k hk
  by_cases hstored : Stored cfg session requests k
  · exact ⟨k, le_refl _, hstored, hgap⟩
  · -- A request that is not stored comes soon after one that is.
    have heligible : (visits session requests k).commits = true := by
      cases k with
      | zero => rfl
      | succ k => exact hcommits k (Nat.lt_of_succ_lt hk)
    rw [Stored, KeptApart, chosen_iff, and_iff_right heligible] at hstored
    push Not at hstored
    obtain ⟨i, ⟨hik, hcrowds⟩, hi⟩ := hstored
    refine ⟨i, hik.le, hi, ?_⟩
    have hmargin : (requests k).time - times session requests k +
        seconds cfg.adminSessionLastSeenWriteIntervalSeconds ≤
          seconds cfg.adminSessionIdleTimeoutSeconds := hgaps k hk
    omega

end Sequence

/-- The session lives through all the requests exactly when each of them comes
soon enough after a stored one. -/
theorem session_kept_iff_near_stored (cfg : Settings) (sid operatorId : String)
    (operator : Server.OperatorSessions.OperatorRow) (s : State)
    (session : OperatorSession) (requests : Nat → Request) (n : Nat)
    (hlive : Live sid operatorId operator s session)
    (hpaced : Paced cfg session requests n) :
    (∀ k < n, Accepted cfg sid operatorId operator s requests k) ↔
      ∀ k < n, NearStored cfg session requests k := by
  induction n with
  | zero => exact iff_of_true nofun nofun
  | succ n ih =>
      rw [Nat.forall_lt_succ_right, Nat.forall_lt_succ_right, ih hpaced.shorter]
      refine and_congr_right fun hnear => ?_
      exact accepted_iff_nearStored hlive hpaced ((ih hpaced.shorter).mpr hnear)

/-! ## A pause after a request that is not stored -/

def pausedSession : OperatorSession where
  operatorId := "o"
  tokenGeneration := 0
  createdAt := 0
  lastSeenAt := 0
  absoluteExpiresAt := seconds 28800

def pausedState : State where
  now := 0
  operators := fun _ => some {}
  sessions := fun _ => some pausedSession

/-- One request 59 seconds after the login, and one just within half an hour
after that. -/
def pausedRequests : Nat → Request
  | 0 => ⟨seconds 59, true⟩
  | _ + 1 => ⟨seconds 1800, true⟩

theorem live_pausedState : Live "s" "o" {} pausedState pausedSession :=
  ⟨rfl, rfl, rfl, rfl⟩

theorem paced_pausedRequests : Paced {} pausedSession pausedRequests 2 :=
  ⟨by decide, by decide, by decide⟩

theorem session_cut_short :
    Live "s" "o" {} pausedState pausedSession ∧
      Paced {} pausedSession pausedRequests 2 ∧
      ¬ ∀ k < 2, Accepted {} "s" "o" {} pausedState pausedRequests k := by
  refine ⟨live_pausedState, paced_pausedRequests, fun h => ?_⟩
  exact absurd (h 1 (by decide)) (by unfold Accepted; decide)

/-- The second request is not near the stored one. -/
theorem session_kept_iff_near_stored_paused :
    Live "s" "o" {} pausedState pausedSession ∧
      Paced {} pausedSession pausedRequests 2 ∧
      ¬ ∀ k < 2, NearStored {} pausedSession pausedRequests k := by
  refine ⟨live_pausedState, paced_pausedRequests, fun h => ?_⟩
  have hkept := (session_kept_iff_near_stored {} "s" "o" {} pausedState
    pausedSession pausedRequests 2 live_pausedState paced_pausedRequests).mpr h
  exact absurd (hkept 1 (by decide)) (by unfold Accepted; decide)

end NodeLink.Proofs.IdleSessions
