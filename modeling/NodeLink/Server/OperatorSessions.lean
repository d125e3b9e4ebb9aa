import Mathlib.Data.List.Sort
import Mathlib.Logic.Function.Basic
import NodeLink.Server.Operators

/-!
# Operator sessions

The server-side sessions of `core/sessions.py`, the access tokens that carry
their ids, and the three dependencies of `api/deps.py` and `api/mfa.py` that
resolve a token. A request is one transaction; between requests the clock goes
on and other people revoke, disable and edit.

Instants are microseconds, and a token's `exp` is in whole seconds. A token's
signature is not modelled: what a client can present is what was issued.
-/

namespace NodeLink.Server.OperatorSessions

open NodeLink.Server

/-! ## Settings, rows and tokens -/

/-- `mfa.enforcement_mode` -/
inductive Enforcement where
  | off
  | optional
  | required
  deriving DecidableEq, Repr

/-- Lifetimes are in seconds. -/
structure Settings where
  accessTokenExpireMinutes : Nat := 60
  mfaPendingTokenTtlSeconds : Nat := 600
  adminSessionAbsoluteLifetimeSeconds : Nat := 28800
  adminSessionIdleTimeoutSeconds : Nat := 1800
  adminSessionLastSeenWriteIntervalSeconds : Nat := 60
  adminSessionMaxConcurrent : Nat := 10
  adminSessionAcceptLegacyTokens : Bool := true
  breakGlassSessionLifetimeSeconds : Nat := 3600
  mfaEnforcement : Enforcement := .optional
  mfaRequiredMinimumRole : OperatorRole := .admin
  deriving DecidableEq, Repr

def seconds (n : Nat) : Int := n * 1000000

/-- `timegm(t.utctimetuple())` -/
def timestamp (t : Int) : Int := t / 1000000

/-- The columns of `Operator` that authentication reads. -/
structure OperatorRow where
  role : OperatorRole := .admin
  disabled : Bool := false
  tokenGeneration : Nat := 0
  deriving DecidableEq, Repr

/-- `OperatorSessionEndReason` -/
inductive EndReason where
  | revokedBySelf
  | revokedByAdmin
  | idleTimeout
  | absoluteTimeout
  | superseded
  deriving DecidableEq, Repr

/-- `OperatorSession`, without what is only displayed. -/
structure OperatorSession where
  operatorId : String
  tokenGeneration : Nat
  isBreakGlass : Bool := false
  createdAt : Int
  lastSeenAt : Int
  absoluteExpiresAt : Int
  endedAt : Option Int := none
  endReason : Option EndReason := none
  deriving DecidableEq, Repr

inductive TokenType where
  | access
  | mfaPending
  deriving DecidableEq, Repr

/-- `AMR_*` -/
inductive AuthMethod where
  | password
  | webauthn
  | recoveryCode
  | emailCode
  | breakGlass
  deriving DecidableEq, Repr

/-- The claims of a token. -/
structure Claims where
  sub : String
  gen : Nat
  exp : Int
  typ : TokenType := .access
  amr : List AuthMethod := [.password]
  sid : Option String := none
  sua : Option Int := none
  deriving DecidableEq, Repr

/-- Where a chain of tokens begins: the session that was opened, if it is a
managed one, and when. -/
structure Origin where
  session : Option String
  login : Int
  deriving DecidableEq, Repr

structure Issued where
  claims : Claims
  origin : Origin
  deriving DecidableEq, Repr

structure State where
  now : Int
  operators : String → Option OperatorRow
  enrolled : String → Bool := fun _ => false
  sessions : String → Option OperatorSession := fun _ => none
  sessionIds : List String := []
  issued : List Issued := []

section Requests

variable (cfg : Settings)

/-! ## Tokens -/

/-- The `exp` of a token that is minted now. -/
def accessExpiry (now : Int) : Int :=
  timestamp (now + seconds (cfg.accessTokenExpireMinutes * 60))

/-- `create_access_token` -/
def createAccessToken (now : Int) (subject : String) (generation : Nat)
    (amr : List AuthMethod) (stepUpAt : Option Int) (sessionId : Option String) :
    Claims where
  sub := subject
  gen := generation
  exp := accessExpiry cfg now
  amr := amr
  sid := sessionId
  sua := stepUpAt.map timestamp

/-- `create_mfa_pending_token` -/
def createMfaPendingToken (now : Int) (subject : String) (generation : Nat) :
    Claims where
  sub := subject
  gen := generation
  exp := timestamp (now + seconds cfg.mfaPendingTokenTtlSeconds)
  typ := .mfaPending

/-- `decode_access_token`: has the token run out? -/
def unexpired (now : Int) (claims : Claims) : Bool :=
  decide (timestamp now ≤ claims.exp)

/-! ## Sessions -/

def idleDeadline (session : OperatorSession) : Int :=
  session.lastSeenAt + seconds cfg.adminSessionIdleTimeoutSeconds

/-- `_end` -/
def OperatorSession.end (session : OperatorSession) (now : Int)
    (reason : EndReason) : OperatorSession :=
  { session with
    endedAt := some now
    endReason := some reason }

def State.putSession (s : State) (id : String) (session : OperatorSession) :
    State :=
  { s with sessions := Function.update s.sessions id (some session) }

/-- `touch` -/
def touch (now : Int) (session : OperatorSession) : OperatorSession :=
  if now - session.lastSeenAt <
      seconds cfg.adminSessionLastSeenWriteIntervalSeconds then session
  else { session with lastSeenAt := now }

/-- `resolve`: the live session, and what the request leaves of the table when
it commits. -/
def resolve (s : State) (sessionId operatorId : String)
    (operator : OperatorRow) : Option OperatorSession × State :=
  match s.sessions sessionId with
  | none => (none, s)
  | some session =>
    if session.operatorId ≠ operatorId then (none, s)
    else if session.endedAt.isSome then (none, s)
    else if session.tokenGeneration ≠ operator.tokenGeneration then
      (none, s.putSession sessionId (session.end s.now .revokedByAdmin))
    else if session.absoluteExpiresAt ≤ s.now then
      (none, s.putSession sessionId (session.end s.now .absoluteTimeout))
    else if idleDeadline cfg session ≤ s.now then
      (none, s.putSession sessionId (session.end s.now .idleTimeout))
    else
      (some (touch cfg s.now session),
        s.putSession sessionId (touch cfg s.now session))

/-- Newer sessions first. -/
def newestFirst (a b : Int × String) : Prop :=
  b.1 < a.1 ∨ (a.1 = b.1 ∧ a.2 ≤ b.2)

instance : DecidableRel newestFirst := fun a b => by
  unfold newestFirst
  exact inferInstance

/-- The live sessions of an operator, with when they were opened. -/
def liveSessions (s : State) (operatorId : String) : List (Int × String) :=
  s.sessionIds.filterMap fun id =>
    match s.sessions id with
    | some r =>
      if r.operatorId = operatorId ∧ r.endedAt = none then some (r.createdAt, id)
      else none
    | none => none

/-- The sessions `_enforce_concurrency_ceiling` closes. -/
def supersededBy (s : State) (operatorId keep : String) : List String :=
  ((((liveSessions s operatorId).insertionSort newestFirst).map (·.2)).filter
    (· ≠ keep)).drop (cfg.adminSessionMaxConcurrent - 1)

/-- `update(OperatorSession).where(ended_at.is_(None), ...)` -/
def State.endWhere (s : State) (p : String → OperatorSession → Bool)
    (reason : EndReason) : State :=
  { s with
    sessions := fun id => (s.sessions id).map fun r =>
      if r.endedAt = none ∧ p id r then r.end s.now reason else r }

/-- The row `create` adds. -/
def newSession (now : Int) (operatorId : String) (operator : OperatorRow)
    (isBreakGlass : Bool) : OperatorSession where
  operatorId := operatorId
  tokenGeneration := operator.tokenGeneration
  isBreakGlass := isBreakGlass
  createdAt := now
  lastSeenAt := now
  absoluteExpiresAt := now + seconds (
    if isBreakGlass then cfg.breakGlassSessionLifetimeSeconds
    else cfg.adminSessionAbsoluteLifetimeSeconds)

def State.addSession (s : State) (sid : String) (session : OperatorSession) :
    State :=
  { s with
    sessions := Function.update s.sessions sid (some session)
    sessionIds := s.sessionIds ++ [sid] }

/-- `_enforce_concurrency_ceiling` -/
def enforceConcurrencyCeiling (s : State) (operatorId keep : String) : State :=
  s.endWhere (fun id _ => decide (id ∈ supersededBy cfg s operatorId keep))
    .superseded

/-- `create` -/
def createSession (s : State) (sid operatorId : String) (operator : OperatorRow)
    (isBreakGlass : Bool) : State :=
  enforceConcurrencyCeiling cfg
    (s.addSession sid (newSession cfg s.now operatorId operator isBreakGlass))
    operatorId sid

/-! ## The dependencies -/

/-- `_operator_for_claims` -/
def operatorForClaims (s : State) (claims : Claims) : Option OperatorRow :=
  match s.operators claims.sub with
  | none => none
  | some operator =>
    if operator.disabled then none
    else if claims.gen ≠ operator.tokenGeneration then none
    else some operator

/-- What a dependency hands to its handler: the operator, and the session
record when there is one. -/
structure Caller where
  operatorId : String
  operator : OperatorRow
  amr : List AuthMethod
  stepUpAt : Option Int
  record : Option String := none
  deriving DecidableEq, Repr

def Claims.caller (claims : Claims) (operator : OperatorRow)
    (record : Option String) : Caller :=
  ⟨claims.sub, operator, claims.amr, claims.sua.map fun t => t * 1000000, record⟩

/-- `_bind_session` -/
def bindSession (s : State) (operator : OperatorRow) (claims : Claims) :
    Option Caller × State :=
  match claims.sid with
  | none =>
    if cfg.adminSessionAcceptLegacyTokens then
      (some (claims.caller operator none), s)
    else (none, s)
  | some sid =>
    match resolve cfg s sid claims.sub operator with
    | (none, s') => (none, s')
    | (some _, s') => (some (claims.caller operator (some sid)), s')

/-- `get_current_operator` -/
def getCurrentOperator (s : State) (claims : Claims) : Option Caller × State :=
  if unexpired s.now claims ∧ claims.typ = .access then
    match operatorForClaims s claims with
    | none => (none, s)
    | some operator => bindSession cfg s operator claims
  else (none, s)

/-- `get_mfa_pending_operator` -/
def getMfaPendingOperator (s : State) (claims : Claims) : Option Caller × State :=
  if unexpired s.now claims ∧ claims.typ = .mfaPending then
    ((operatorForClaims s claims).map fun operator =>
      claims.caller operator none, s)
  else (none, s)

def OperatorRole.rank : OperatorRole → Nat
  | .readonly => 0
  | .operator => 1
  | .admin => 2

/-- `enrollment_is_required` -/
def enrollmentIsRequired (operator : OperatorRow) : Bool :=
  decide (cfg.mfaEnforcement = .required) &&
    decide (OperatorRole.rank cfg.mfaRequiredMinimumRole ≤
      OperatorRole.rank operator.role)

/-- `session_is_mfa_verified` -/
def sessionIsMfaVerified (amr : List AuthMethod) : Bool :=
  amr.any fun m => m == .webauthn || m == .recoveryCode || m == .emailCode

/-- `get_enrollment_operator` -/
def getEnrollmentOperator (s : State) (claims : Claims) : Option Caller × State :=
  if unexpired s.now claims then
    match operatorForClaims s claims with
    | none => (none, s)
    | some operator =>
      match claims.typ with
      | .mfaPending =>
        if s.enrolled claims.sub || !enrollmentIsRequired cfg operator then
          (none, s)
        else (some (claims.caller operator none), s)
      | .access =>
        if s.enrolled claims.sub && decide (cfg.mfaEnforcement ≠ .off) &&
            !sessionIsMfaVerified claims.amr then (none, s)
        else (some (claims.caller operator none), s)
  else (none, s)

inductive Dependency where
  | currentOperator
  | mfaPendingOperator
  | enrollmentOperator
  deriving DecidableEq, Repr

def authenticate (s : State) (claims : Claims) :
    Dependency → Option Caller × State
  | .currentOperator => getCurrentOperator cfg s claims
  | .mfaPendingOperator => getMfaPendingOperator s claims
  | .enrollmentOperator => getEnrollmentOperator cfg s claims

/-- Does an endpoint with this dependency let the token in? -/
def accepts (s : State) (claims : Claims) (dep : Dependency) : Bool :=
  (authenticate cfg s claims dep).1.isSome

/-! ## Handlers and everything else -/

def State.issue (s : State) (claims : Claims) (origin : Origin) : State :=
  { s with issued := s.issued ++ [⟨claims, origin⟩] }

/-- `refresh_session` -/
def refreshSession (s : State) (token : Issued) : State :=
  match getCurrentOperator cfg s token.claims with
  | (none, s') => s'
  | (some caller, s') =>
    match caller.record with
    | none => s
    | some sid =>
      s'.issue (createAccessToken cfg s.now caller.operatorId
        caller.operator.tokenGeneration caller.amr caller.stepUpAt (some sid))
        token.origin

/-- `complete_step_up`, when the authenticator is asserted. -/
def completeStepUp (s : State) (token : Issued) : State :=
  match getCurrentOperator cfg s token.claims with
  | (none, s') => s'
  | (some caller, s') =>
    s'.issue (createAccessToken cfg s.now caller.operatorId
      caller.operator.tokenGeneration
      (caller.amr ++ [AuthMethod.password, AuthMethod.webauthn]).dedup (some s.now) caller.record)
      token.origin

/-- A login that is complete: a password alone, a second factor, or a
break-glass credential. -/
def completeLogin (s : State) (operatorId sid : String)
    (amr : List AuthMethod) (stepUp isBreakGlass : Bool) : State :=
  match s.operators operatorId with
  | none => s
  | some operator =>
    if operator.disabled then s
    else if (s.sessions sid).isSome ∨
        s.issued.any (fun i => decide (i.origin.session = some sid)) then s
    else
      (createSession cfg s sid operatorId operator isBreakGlass).issue
        (createAccessToken cfg s.now operatorId operator.tokenGeneration amr
          (if stepUp then some s.now else none) (some sid)) ⟨some sid, s.now⟩

/-- `login`, when a second factor is wanted. -/
def beginLogin (s : State) (operatorId : String) : State :=
  match s.operators operatorId with
  | none => s
  | some operator =>
    if operator.disabled then s
    else
      s.issue (createMfaPendingToken cfg s.now operatorId operator.tokenGeneration)
        ⟨none, s.now⟩

inductive Event where
  /-- The clock goes on. -/
  | tick (elapsed : Nat)
  | beginLogin (operatorId : String)
  | completeLogin (operatorId sid : String) (amr : List AuthMethod)
      (stepUp isBreakGlass : Bool)
  /-- A request to an endpoint with this dependency. Its handler may fail, and
  what the dependency wrote is rolled back. -/
  | request (token : Issued) (dep : Dependency) (fails : Bool)
  | refresh (token : Issued)
  | stepUp (token : Issued)
  /-- `revoke` of one session. -/
  | revoke (sid : String) (byAdmin : Bool)
  /-- `revoke_all_for_operator` -/
  | revokeAll (operatorId : String) (reason : EndReason)
      (exceptSession : Option String)
  /-- `token_generation += 1` -/
  | bumpGeneration (operatorId : String)
  | createOperator (operatorId : String) (role : OperatorRole)
  | editOperator (operatorId : String) (role : OperatorRole) (disabled : Bool)
  | setEnrolled (operatorId : String) (enrolled : Bool)
  /-- `expire_lapsed` -/
  | expireLapsed
  /-- `purge_ended` of the sessions that ended by an instant. -/
  | purgeEnded (cutoff : Int)
  deriving DecidableEq

def State.editOperator (s : State) (id : String) (f : OperatorRow → OperatorRow) :
    State :=
  { s with operators := Function.update s.operators id ((s.operators id).map f) }

def purged (cutoff : Int) (r : OperatorSession) : Bool :=
  match r.endedAt with
  | some t => decide (t ≤ cutoff)
  | none => false

def step (s : State) : Event → State
  | .tick elapsed => { s with now := s.now + elapsed }
  | .beginLogin operatorId => beginLogin cfg s operatorId
  | .completeLogin operatorId sid amr stepUp isBreakGlass =>
    completeLogin cfg s operatorId sid amr stepUp isBreakGlass
  | .request token dep fails =>
    if token ∈ s.issued then
      match authenticate cfg s token.claims dep with
      | (none, s') => s'
      | (some _, s') => if fails then s else s'
    else s
  | .refresh token => if token ∈ s.issued then refreshSession cfg s token else s
  | .stepUp token => if token ∈ s.issued then completeStepUp cfg s token else s
  | .revoke sid byAdmin =>
    s.endWhere (fun id _ => decide (id = sid))
      (if byAdmin then .revokedByAdmin else .revokedBySelf)
  | .revokeAll operatorId reason exceptSession =>
    s.endWhere (fun id r => decide (r.operatorId = operatorId) &&
      decide (exceptSession ≠ some id)) reason
  | .bumpGeneration operatorId =>
    s.editOperator operatorId fun o =>
      { o with tokenGeneration := o.tokenGeneration + 1 }
  | .createOperator operatorId role =>
    if (s.operators operatorId).isSome then s
    else
      { s with
        operators := Function.update s.operators operatorId
          (some { role := role }) }
  | .editOperator operatorId role disabled =>
    s.editOperator operatorId fun o => { o with role, disabled }
  | .setEnrolled operatorId enrolled =>
    { s with enrolled := Function.update s.enrolled operatorId enrolled }
  | .expireLapsed =>
    s.endWhere (fun _ r => decide (r.absoluteExpiresAt ≤ s.now)) .absoluteTimeout
  | .purgeEnded cutoff =>
    { s with
      sessions := fun id => (s.sessions id).filter fun r => !purged cutoff r }

def run (s : State) (events : List Event) : State := events.foldl (step cfg) s

end Requests

end NodeLink.Server.OperatorSessions
