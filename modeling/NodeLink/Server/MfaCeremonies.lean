import NodeLink.Lib.Actions
import NodeLink.Server.WebAuthn

/-!
# Challenges and authenticators

`core/mfa.py` and the handlers of `api/mfa.py` that start and complete a
ceremony. A start retires the outstanding challenges and inserts another; a
completion claims one with a conditional update, verifies what the browser sent
and, when that is refused, commits the claim before it raises. A row that was
updated is held until the transaction ends, and what a transaction wrote is lost
when it is rolled back.

Requests that `_require_enabled` or the rate limit turns away read nothing.
-/

namespace NodeLink.Server.MfaCeremonies

open Lib WebAuthn

/-! ## Rows -/

/-- `WebAuthnChallengePurpose` -/
inductive Purpose where
  | registration
  | authentication
  | stepUp
  deriving DecidableEq, Repr

/-- `WebAuthnChallenge`; an instant is a number of microseconds. -/
structure Challenge where
  id : Nat
  operatorId : String
  purpose : Purpose
  /-- The raw bytes; the column holds them in base64url. -/
  challenge : Bytes
  rpId : String
  createdAt : Int
  expiresAt : Int
  consumedAt : Option Int := none
  deriving DecidableEq, Repr

/-- `WebAuthnCredential` -/
structure Credential where
  id : Nat
  operatorId : String
  credentialId : String
  publicKeyCose : Bytes
  algorithm : Int
  signCount : Nat
  aaguid : Bytes
  name : String
  transports : Option String
  attestationFormat : String
  backupEligible : Bool
  backupState : Bool
  lastUsedAt : Option Int := none
  revokedAt : Option Int := none
  deriving DecidableEq, Repr

/-! ## Requests -/

structure RegistrationVerification where
  name : String
  clientDataJson : String
  attestationObject : String
  transports : Option (List String) := none
  deriving DecidableEq, Repr

structure AssertionVerification where
  credentialId : String
  clientDataJson : String
  authenticatorData : String
  signature : String
  deriving DecidableEq, Repr

inductive Request where
  /-- `registration_options`, `login_options` and `step_up_options` -/
  | options (purpose : Purpose)
  /-- `register_credential` -/
  | register (body : RegistrationVerification)
  /-- `_verify_assertion_for` -/
  | assertion (purpose : Purpose) (body : AssertionVerification)
  deriving DecidableEq, Repr

def Request.purpose : Request → Purpose
  | .options purpose => purpose
  | .register _ => .registration
  | .assertion purpose _ => purpose

/-- The settings and the relying party of a deployment, and the library. -/
structure Config where
  lib : WebAuthnLib
  rpId : String
  origins : List String
  requireUserVerification : Bool := true
  maxCredentialsPerOperator : Int := 10
  challengeTtlSeconds : Int := 300

/-- How far a request has come. -/
inductive Stage where
  /-- Nothing is read yet. -/
  | begun
  /-- A start that may go on. -/
  | allowed
  /-- The outstanding challenges as the update that retires them sees them. -/
  | retiring (ids : List Nat)
  | retired
  /-- The challenge that was selected. -/
  | selected (id : Nat)
  | claimed (challenge : Challenge)
  /-- The authenticator as it was read. -/
  | looked (challenge : Challenge) (credential : Credential)
  /-- A registration that was verified. -/
  | verified (result : RegistrationResult)
  /-- The handler commits, whatever it answers. -/
  | done
  /-- The handler raised without a commit. -/
  | raised
  deriving DecidableEq, Repr

/-- An accepted assertion over the authenticator as it was read. -/
structure Assertion where
  credential : Credential
  result : AssertionResult
  usedAt : Int
  deriving DecidableEq, Repr

/-- A request under way, with what it wrote. -/
structure Txn where
  request : Request
  operatorId : String
  stage : Stage := .begun
  now : Int := 0
  /-- The challenges it marked as consumed. -/
  consumed : List Nat := []
  /-- The challenge it inserted. -/
  issued : Option Challenge := none
  /-- The challenge a verification was called with. -/
  presented : Option Nat := none
  registered : Option Credential := none
  accepted : Option Assertion := none
  deriving DecidableEq, Repr

/-- The committed rows, the requests under way, the numbers of rows that were
given out, and what verifications were called with and accepted, newest first. -/
structure State where
  clock : Int := 0
  challenges : List Challenge := []
  credentials : List Credential := []
  txns : Open Txn := {}
  challengeIds : Nat := 0
  credentialIds : Nat := 0
  presented : List Nat := []
  accepted : List (Nat × Nat) := []
  deriving DecidableEq, Repr

/-! ## Starting a ceremony -/

/-- `active_credentials` -/
def State.activeCredentials (s : State) (operatorId : String) : List Credential :=
  s.credentials.filter fun c =>
    decide (c.operatorId = operatorId) && c.revokedAt.isNone

variable (cfg : Config) (s : State)

/-- The operator holds as many authenticators as may be. -/
def atLimit (operatorId : String) : Bool :=
  decide (cfg.maxCredentialsPerOperator ≤ (s.activeCredentials operatorId).length)

/-- The check a start makes before it issues a challenge. -/
def check (x : Txn) : Txn :=
  let refused :=
    if x.request.purpose = .registration then atLimit cfg s x.operatorId
    else (s.activeCredentials x.operatorId).isEmpty
  { x with stage := if refused then .raised else .allowed }

/-- An unconsumed challenge of the operator, for the purpose. -/
def outstanding (x : Txn) (c : Challenge) : Bool :=
  decide (c.operatorId = x.operatorId) && decide (c.purpose = x.request.purpose) &&
    c.consumedAt.isNone

/-- What the update of `issue_challenge` is about. -/
def scan (x : Txn) : Txn :=
  { x with
    now := s.clock
    stage := .retiring ((s.challenges.filter (outstanding x)).map (·.id)) }

/-- Of these challenges, those that are still there unconsumed. -/
def stillOpen (ids : List Nat) : List Nat :=
  (s.challenges.filter fun c => decide (c.id ∈ ids) && c.consumedAt.isNone).map
    (·.id)

def retire (ids : List Nat) (x : Txn) : Txn :=
  { x with
    consumed := stillOpen s ids
    stage := .retired }

def newChallenge (x : Txn) (raw : Bytes) : Challenge where
  id := s.challengeIds
  operatorId := x.operatorId
  purpose := x.request.purpose
  challenge := raw
  rpId := cfg.rpId
  createdAt := x.now
  expiresAt := x.now + 1000000 * cfg.challengeTtlSeconds

def issue (raw : Bytes) (x : Txn) : Txn :=
  { x with
    issued := some (newChallenge cfg s x raw)
    stage := .done }

/-! ## Completing one -/

/-- What `consume_challenge` selects from. -/
def spendable (x : Txn) (c : Challenge) : Bool :=
  outstanding x c && decide (s.clock < c.expiresAt)

/-- `pick` is a newest of the challenges to select from. -/
def selects (x : Txn) : Option Nat → Bool
  | none => !s.challenges.any (spendable s x)
  | some id => s.challenges.any fun c =>
    decide (c.id = id) && spendable s x c &&
      s.challenges.all fun d =>
        !spendable s x d || decide (d.createdAt ≤ c.createdAt)

/-- Without a challenge, the failure is recorded and committed. -/
def select (pick : Option Nat) (x : Txn) : Txn :=
  { x with
    now := s.clock
    stage := match pick with
      | none => .done
      | some id => .selected id }

/-- The conditional update of `consume_challenge`. -/
def claim (id : Nat) (x : Txn) : Txn :=
  match s.challenges.find? fun c => decide (c.id = id) && c.consumedAt.isNone with
  | none => { x with stage := .done }
  | some c => { x with consumed := [id], stage := .claimed c }

/-- The authenticator an assertion names. -/
def look (c : Challenge) (body : AssertionVerification) (x : Txn) : Txn :=
  match (s.activeCredentials x.operatorId).find? fun k =>
    decide (k.credentialId = body.credentialId) with
  | none => { x with stage := .done }
  | some k => { x with stage := .looked c k }

/-- What becomes of the fields of a request. -/
inductive Verdict where
  /-- A field does not decode: nothing is verified. -/
  | undecodable
  | failed (fault : Fault)
  | registration (result : RegistrationResult)
  | assertion (credential : Credential) (result : AssertionResult)
  deriving DecidableEq, Repr

/-- The verification of `register_credential`. -/
def verifyRegister (c : Challenge) (body : RegistrationVerification) : Verdict :=
  match decodeField body.clientDataJson .malformedClientData,
    decodeField body.attestationObject .malformedAttestationObject with
  | .ok clientDataJson, .ok attestationObject =>
    match verifyRegistration cfg.lib clientDataJson attestationObject c.challenge
      cfg.origins c.rpId cfg.requireUserVerification with
    | .ok result => .registration result
    | .error fault => .failed fault
  | _, _ => .undecodable

/-- The verification of `_verify_assertion_for`. -/
def verifyAssert (c : Challenge) (k : Credential) (body : AssertionVerification) :
    Verdict :=
  match decodeField body.clientDataJson .malformedClientData,
    decodeField body.authenticatorData .malformedAuthenticatorData,
    decodeField body.signature .malformedSignature with
  | .ok clientDataJson, .ok authenticatorData, .ok signature =>
    match verifyAssertion cfg.lib clientDataJson authenticatorData signature
      c.challenge cfg.origins c.rpId k.publicKeyCose k.signCount
      cfg.requireUserVerification with
    | .ok result => .assertion k result
    | .error fault => .failed fault
  | _, _, _ => .undecodable

/-- The challenge a request verifies with, and what comes of it. -/
def examine (x : Txn) : Option (Challenge × Verdict) :=
  match x.stage, x.request with
  | .claimed c, .register body => some (c, verifyRegister cfg c body)
  | .looked c k, .assertion _ body => some (c, verifyAssert cfg c k body)
  | _, _ => none

/-- A refusal is committed; another exception is not. -/
def settle (c : Challenge) (x : Txn) : Verdict → Txn
  | .undecodable => { x with stage := .done }
  | .failed (.refused _) => { x with presented := some c.id, stage := .done }
  | .failed .raised => { x with presented := some c.id, stage := .raised }
  | .registration result =>
    { x with presented := some c.id, stage := .verified result }
  | .assertion k result =>
    { x with
      presented := some c.id
      accepted := some ⟨k, result, s.clock⟩
      stage := .done }

/-- The verification was called. -/
def Verdict.called : Verdict → Bool
  | .undecodable => false
  | _ => true

/-- The authenticator and the counter of an accepted assertion. -/
def Verdict.counted : Verdict → Option (Nat × Nat)
  | .assertion k result => some (k.id, result.signCount)
  | _ => none

/-- `",".join(transports)[:120]` -/
def joinTransports : Option (List String) → Option String
  | none => none
  | some [] => none
  | some ts => some (String.ofList ((String.intercalate "," ts).toList.take 120))

def newCredential (x : Txn) (body : RegistrationVerification)
    (result : RegistrationResult) : Credential where
  id := s.credentialIds
  operatorId := x.operatorId
  credentialId := b64urlEncode result.credentialId
  publicKeyCose := result.publicKeyCose
  algorithm := result.algorithm
  signCount := result.signCount
  aaguid := result.aaguid
  name := body.name
  transports := joinTransports body.transports
  attestationFormat := result.attestationFormat
  backupEligible := result.backupEligible
  backupState := result.backupState

/-- The rest of `register_credential`. Its refusals are not committed. -/
def store (body : RegistrationVerification) (result : RegistrationResult)
    (x : Txn) : Txn :=
  if maxCredentialIdBytes < result.credentialId.length then
    { x with stage := .raised }
  else if atLimit cfg s x.operatorId then { x with stage := .raised }
  else if s.credentials.any fun k =>
      decide (k.credentialId = b64urlEncode result.credentialId) then
    { x with stage := .raised }
  else
    { x with
      registered := some (newCredential s x body result)
      stage := .done }

/-! ## Ending a transaction -/

def Txn.spend (x : Txn) (c : Challenge) : Challenge :=
  if c.id ∈ x.consumed then { c with consumedAt := some x.now } else c

/-- The columns an accepted assertion writes. -/
def Txn.touch (x : Txn) (k : Credential) : Credential :=
  match x.accepted with
  | none => k
  | some a =>
    if a.credential.id = k.id then
      { k with
        signCount := written (decide (a.result.signCount = a.credential.signCount))
          a.result.signCount k.signCount
        backupState :=
          written (decide (a.result.backupState = a.credential.backupState))
            a.result.backupState k.backupState
        lastUsedAt := some a.usedAt }
    else k

def State.commit (x : Txn) : State :=
  { s with
    challenges := s.challenges.map x.spend ++ x.issued.toList
    credentials := s.credentials.map x.touch ++ x.registered.toList }

/-! ## Requests side by side -/

inductive Action where
  | tick (microseconds : Nat)
  | arrive (t : Nat) (operatorId : String) (request : Request)
  | check (t : Nat)
  | scan (t : Nat)
  | retire (t : Nat)
  | issue (t : Nat) (raw : Bytes)
  | select (t : Nat) (pick : Option Nat)
  | claim (t : Nat)
  | look (t : Nat)
  | verify (t : Nat)
  | store (t : Nat)
  | commit (t : Nat)
  | rollback (t : Nat)
  /-- `purge_expired_challenges` -/
  | purge (ids : List Nat)
  /-- `revoke_credential` -/
  | revoke (id : Nat)
  deriving DecidableEq, Repr

/-- Another request holds one of these challenges. -/
def State.held (t : Nat) (ids : List Nat) : Bool :=
  s.txns.other t fun y => y.consumed.any fun id => decide (id ∈ ids)

/-- Another request has inserted this credential id. -/
def State.inserting (t : Nat) (credentialId : String) : Bool :=
  s.txns.other t fun y =>
    y.registered.any fun k => decide (k.credentialId = credentialId)

def Request.starts : Request → Bool
  | .options _ => true
  | _ => false

/-- A step of request `t` that may be taken where it stands. -/
def State.stands (t : Nat) (p : Txn → Bool) : Bool :=
  match s.txns.get t with
  | none => false
  | some x => p x

def Txn.mayRetire (t : Nat) (x : Txn) : Bool :=
  match x.stage with
  | .retiring ids => !s.held t ids
  | _ => false

def Txn.maySelect (pick : Option Nat) (x : Txn) : Bool :=
  decide (x.stage = .begun) && !x.request.starts && selects s x pick

def Txn.mayClaim (t : Nat) (x : Txn) : Bool :=
  match x.stage with
  | .selected id => !s.held t [id]
  | _ => false

def Txn.mayLook (x : Txn) : Bool :=
  match x.stage, x.request with
  | .claimed _, .assertion _ _ => true
  | _, _ => false

def Txn.mayStore (t : Nat) (x : Txn) : Bool :=
  match x.stage, x.request with
  | .verified result, .register _ =>
    !s.inserting t (b64urlEncode result.credentialId)
  | _, _ => false

def enabled : Action → Bool
  | .tick _ => true
  | .arrive t _ request =>
    (s.txns.get t).isNone &&
      (match request with
        | .assertion purpose _ => decide (purpose ≠ .registration)
        | _ => true)
  | .check t => s.stands t fun x => decide (x.stage = .begun) && x.request.starts
  | .scan t => s.stands t fun x => decide (x.stage = .allowed)
  | .retire t => s.stands t (Txn.mayRetire s t)
  | .issue t raw =>
    decide (raw.length = 32) && s.stands t fun x => decide (x.stage = .retired)
  | .select t pick => s.stands t (Txn.maySelect s pick)
  | .claim t => s.stands t (Txn.mayClaim s t)
  | .look t => s.stands t Txn.mayLook
  | .verify t => s.stands t fun x => (examine cfg x).isSome
  | .store t => s.stands t (Txn.mayStore s t)
  | .commit t => s.stands t fun x => decide (x.stage = .done)
  | .rollback t => (s.txns.get t).isSome
  | .purge ids =>
    (!s.txns.entries.any fun e => e.2.consumed.any fun id => decide (id ∈ ids)) &&
      s.challenges.all fun c => decide (c.id ∈ ids → c.expiresAt ≤ s.clock)
  | .revoke _ => true

/-- Request `t` goes on. -/
def State.go (t : Nat) (step : Txn → Txn) : State :=
  match s.txns.get t with
  | none => s
  | some x => { s with txns := s.txns.put t (step x) }

def stepRetire (x : Txn) : Txn :=
  match x.stage with
  | .retiring ids => retire s ids x
  | _ => x

def stepClaim (x : Txn) : Txn :=
  match x.stage with
  | .selected id => claim s id x
  | _ => x

def stepLook (x : Txn) : Txn :=
  match x.stage, x.request with
  | .claimed c, .assertion _ body => look s c body x
  | _, _ => x

def stepStore (x : Txn) : Txn :=
  match x.stage, x.request with
  | .verified result, .register body => store cfg s body result x
  | _, _ => x

def State.verify (t : Nat) : State :=
  match s.txns.get t with
  | none => s
  | some x =>
    match examine cfg x with
    | none => s
    | some (c, verdict) =>
      { s with
        txns := s.txns.put t (settle s c x verdict)
        presented := if verdict.called then c.id :: s.presented else s.presented
        accepted := verdict.counted.toList ++ s.accepted }

def next : Action → State
  | .tick microseconds => { s with clock := s.clock + microseconds }
  | .arrive t operatorId request =>
    { s with txns := s.txns.put t { request, operatorId } }
  | .check t => s.go t (check cfg s)
  | .scan t => s.go t (scan s)
  | .retire t => s.go t (stepRetire s)
  | .issue t raw =>
    { s.go t (issue cfg s raw) with challengeIds := s.challengeIds + 1 }
  | .select t pick => s.go t (select s pick)
  | .claim t => s.go t (stepClaim s)
  | .look t => s.go t (stepLook s)
  | .verify t => s.verify cfg t
  | .store t =>
    { s.go t (stepStore cfg s) with credentialIds := s.credentialIds + 1 }
  | .commit t =>
    match s.txns.get t with
    | none => s
    | some x => { s.commit x with txns := s.txns.close t }
  | .rollback t => { s with txns := s.txns.close t }
  | .purge ids =>
    { s with challenges := s.challenges.filter fun c => decide (c.id ∉ ids) }
  | .revoke id =>
    { s with
      credentials := s.credentials.map fun k =>
        if k.id = id ∧ k.revokedAt = none then { k with revokedAt := some s.clock }
        else k }

/-- Ceremonies of any number of operators. -/
def system : System State Action := ⟨enabled cfg, next cfg⟩

end NodeLink.Server.MfaCeremonies
