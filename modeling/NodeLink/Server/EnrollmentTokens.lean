import Mathlib.Logic.Function.Basic
import NodeLink.Lib.Actions
import NodeLink.Lib.Checks
import NodeLink.Lib.Folding

/-!
# Enrollment tokens

`core/enrollment.py`: a redemption reads a token, checks its claims against
what was read, spends one use with a conditional update and adds the agent, all
in one transaction. PostgreSQL locks the row from the first read; SQLite does
not. `revoke_enrollment_token` in `api/management.py` reads without a lock and
writes the columns of the revocation. A row that was written is held until the
transaction ends.
-/

namespace NodeLink.Server.EnrollmentTokens

open Lib

/-- `EnrollmentToken`; an instant is a number of microseconds. -/
structure EnrollmentToken where
  siteId : String
  tokenHash : String
  assignedUserId : Option String := none
  environment : Option String := none
  hostnameRestriction : Option String := none
  agentNameRestriction : Option String := none
  labels : List String := []
  maxUses : Nat := 1
  uses : Nat := 0
  revoked : Bool := false
  expiresAt : Option Int := none
  lastUsedAt : Option Int := none
  revokedAt : Option Int := none
  revokedById : Option String := none
  deriving DecidableEq, Repr

structure Site where
  name : String
  clientId : String
  deriving DecidableEq, Repr

/-- `EnrollmentTokenCreate`, as it arrives. -/
structure EnrollmentTokenCreate where
  siteId : String
  assignedUserId : Option String := none
  environment : Option String := none
  hostnameRestriction : Option String := none
  agentNameRestriction : Option String := none
  labels : List String := []
  maxUses : Nat := 1
  deriving DecidableEq, Repr

structure EnrollRequest where
  enrollmentToken : String
  hostname : String
  agentName : Option String := none
  os : String := ""
  operatingSystem : Option String := none
  osVersion : String := ""
  agentVersion : String := ""
  architecture : String := ""
  environment : Option String := none
  site : Option String := none
  supportedCommandEnvelopeVersions : List String := []
  supportedCapabilities : List String := []
  updateChannel : Option String := none
  deriving DecidableEq, Repr

/-- `Agent`, in status pending. -/
structure Agent where
  id : String
  siteId : String
  tokenHash : String
  credentialFingerprint : String
  credentialIssuedAt : Int
  credentialExpiresAt : Int
  name : String
  hostname : String
  os : String
  osVersion : String
  agentVersion : String
  architecture : String
  environment : Option String
  labels : List String
  ownerUserId : Option String
  enrolledByTokenId : String
  ipAddress : Option String
  commandEnvelopeVersions : List String
  supportedCapabilities : List String
  updateChannel : Option String
  enrolledAt : Int
  deriving DecidableEq, Repr

/-- What a deployment settles, and the functions of `core/security.py`. -/
structure Config where
  folding : CaseFolding
  hashToken : String → String
  credentialFingerprint : String → String
  agentCredentialLifetimeSeconds : Nat := 86400
  /-- `FOR UPDATE` locks the row. -/
  rowLocks : Bool

/-! ## Redeeming -/

/-- The reasons of `EnrollmentRejected`. -/
inductive Reason where
  | invalid
  | revoked
  | expired
  | exhausted
  | invalidAssignment
  | siteRestriction
  | hostnameRestriction
  | agentNameRestriction
  | environmentRestriction
  | concurrentUse
  deriving DecidableEq, Repr

def Reason.text : Reason → String
  | .invalid => "invalid"
  | .revoked => "revoked"
  | .expired => "expired"
  | .exhausted => "exhausted"
  | .invalidAssignment => "invalid_assignment"
  | .siteRestriction => "site_restriction"
  | .hostnameRestriction => "hostname_restriction"
  | .agentNameRestriction => "agent_name_restriction"
  | .environmentRestriction => "environment_restriction"
  | .concurrentUse => "concurrent_use"

/-- `bool(value)` -/
def given : Option String → Bool
  | none => false
  | some value => decide (value ≠ "")

/-- `value or fallback` -/
def orElse (value : Option String) (fallback : String) : String :=
  match value with
  | none => fallback
  | some v => if v = "" then fallback else v

/-- `_same_claim` -/
def sameClaim (F : CaseFolding) (expected actual : Option String) : Bool :=
  if given expected then
    given actual && decide (expected.map F.casefold = actual.map F.casefold)
  else true

def resolvedName (body : EnrollRequest) : String :=
  strip (orElse body.agentName body.hostname)

def unexpired (now : Int) (token : EnrollmentToken) : Bool :=
  match token.expiresAt with
  | none => false
  | some expiry => decide (now < expiry)

/-- The checks on the token as it was read, and on its site. -/
def check (F : CaseFolding) (token : EnrollmentToken) (site : Option Site)
    (body : EnrollRequest) (now : Int) : Except Reason Unit := do
  require (token.revoked = false ∧ token.revokedAt = none) .revoked
  require (unexpired now token = true) .expired
  require (token.uses < token.maxUses) .exhausted
  require (site ≠ none) .invalidAssignment
  require (given body.site = true →
    sameClaim F (site.map (·.name)) body.site = true) .siteRestriction
  require (sameClaim F token.hostnameRestriction (some body.hostname) = true)
    .hostnameRestriction
  require (sameClaim F token.agentNameRestriction
    (some (resolvedName body)) = true) .agentNameRestriction
  require (given token.environment = true → given body.environment = true →
    sameClaim F token.environment body.environment = true)
    .environmentRestriction

/-- The condition of the update, beyond the key. -/
def spendable (now : Int) (token : EnrollmentToken) : Bool :=
  !token.revoked && token.revokedAt.isNone && unexpired now token &&
    decide (token.uses < token.maxUses)

def spend (now : Int) (token : EnrollmentToken) : EnrollmentToken :=
  { token with
    uses := token.uses + 1
    lastUsedAt := some now }

/-- The agent of a redemption, from the token as the update left it. -/
def newAgent (cfg : Config) (key : String) (token : EnrollmentToken)
    (body : EnrollRequest) (sourceIp : Option String) (now : Int)
    (id agentToken : String) : Agent where
  id := id
  siteId := token.siteId
  tokenHash := cfg.hashToken agentToken
  credentialFingerprint := cfg.credentialFingerprint agentToken
  credentialIssuedAt := now
  credentialExpiresAt := now + 1000000 * cfg.agentCredentialLifetimeSeconds
  name := resolvedName body
  hostname := strip body.hostname
  os := strip (orElse body.operatingSystem body.os)
  osVersion := strip body.osVersion
  agentVersion := strip body.agentVersion
  architecture := strip body.architecture
  environment := if given token.environment then token.environment
    else body.environment
  labels := token.labels
  ownerUserId := token.assignedUserId
  enrolledByTokenId := key
  ipAddress := sourceIp
  commandEnvelopeVersions := body.supportedCommandEnvelopeVersions
  supportedCapabilities := body.supportedCapabilities
  updateChannel := body.updateChannel
  enrolledAt := now

/-! ## Minting and revoking -/

/-- A token as `create_enrollment_token` adds it: Pydantic has trimmed the
texts of the request. -/
def newToken (cfg : Config) (body : EnrollmentTokenCreate) (plaintext : String)
    (expiresAt : Int) : EnrollmentToken where
  siteId := body.siteId
  tokenHash := cfg.hashToken plaintext
  assignedUserId := body.assignedUserId
  environment := body.environment.map trimSpace
  hostnameRestriction := body.hostnameRestriction.map trimSpace
  agentNameRestriction := body.agentNameRestriction.map trimSpace
  labels := body.labels.map trimSpace
  maxUses := body.maxUses
  expiresAt := some expiresAt

/-- The columns that `revoke_enrollment_token` writes. -/
def revokeEdit (now : Int) (operator : String) (token : EnrollmentToken) :
    EnrollmentToken :=
  { token with
    revoked := true
    revokedAt := some now
    revokedById := some operator }

/-! ## Transactions side by side -/

inductive Request where
  | redeem (body : EnrollRequest) (sourceIp : Option String)
  | revoke (operator : String)
  deriving DecidableEq, Repr

/-- A request under way: the token it is about as it was read, the row as it
was written, and the agent that was added. -/
structure Txn where
  request : Request
  key : String
  now : Int
  read : EnrollmentToken
  locked : Bool := false
  written : Option EnrollmentToken := none
  agent : Option Agent := none
  deriving DecidableEq, Repr

def Txn.holds (key : String) (x : Txn) : Bool :=
  decide (x.key = key) && (x.locked || x.written.isSome)

/-- The committed rows, and the requests under way. -/
structure State where
  ids : List String := []
  tokens : String → Option EnrollmentToken := fun _ => none
  sites : String → Option Site
  agents : List Agent := []
  txns : Open Txn := {}

inductive Action where
  /-- `create_enrollment_token` -/
  | create (id : String) (body : EnrollmentTokenCreate) (plaintext : String)
    (expiresAt : Int)
  /-- A redemption up to its checks. -/
  | redeem (t : Nat) (now : Int) (body : EnrollRequest)
    (sourceIp : Option String)
  /-- Its conditional update, and the agent it adds after it. -/
  | consume (t : Nat) (agentId agentToken : String)
  /-- `revoke_enrollment_token`, up to its read. -/
  | revoke (t : Nat) (key : String) (now : Int) (operator : String)
  /-- Its update. -/
  | write (t : Nat)
  | commit (t : Nat)
  | rollback (t : Nat)
  deriving DecidableEq, Repr

/-- The one token of the digest. -/
def State.select (s : State) (digest : String) :
    Option (String × EnrollmentToken) :=
  match (s.ids.filterMap fun id => (s.tokens id).map fun token => (id, token)
    ).filter fun e => decide (e.2.tokenHash = digest) with
  | [e] => some e
  | _ => none

def State.heldByOther (s : State) (t : Nat) (key : String) : Bool :=
  s.txns.other t (Txn.holds key)

variable (cfg : Config)

/-- With row locks, a redemption waits for the token it selects. -/
def waits (s : State) (t : Nat) (body : EnrollRequest) : Bool :=
  match s.select (cfg.hashToken body.enrollmentToken) with
  | none => false
  | some e => cfg.rowLocks && s.heldByOther t e.1

/-- Where a request has come to. -/
inductive Stage where
  | redeeming
  | revoking
  | written
  deriving DecidableEq, Repr

def Txn.stage (x : Txn) : Stage :=
  if x.written.isSome then .written
  else match x.request with
    | .redeem _ _ => .redeeming
    | .revoke _ => .revoking

/-- Request `t` stands there, and nobody else holds its row. -/
def ready (s : State) (t : Nat) (stage : Stage) : Bool :=
  match s.txns.get t with
  | some x => decide (x.stage = stage) && !s.heldByOther t x.key
  | none => false

def enabled (s : State) : Action → Bool
  | .create id _ _ _ => (s.tokens id).isNone
  | .redeem t _ body _ => (s.txns.get t).isNone && !waits cfg s t body
  | .consume t _ _ => ready s t .redeeming
  | .revoke t _ _ _ => (s.txns.get t).isNone
  | .write t => ready s t .revoking
  | .commit t =>
    match s.txns.get t with
    | some x =>
      x.written.isSome &&
        (match x.agent with
          | none => true
          | some agent => s.agents.all fun a => decide (a.id ≠ agent.id))
    | none => false
  | .rollback t => (s.txns.get t).isSome

/-- The redemption reads and checks: what it goes on with, or why it is
refused. -/
def load (s : State) (now : Int) (body : EnrollRequest)
    (sourceIp : Option String) : Except Reason Txn :=
  match s.select (cfg.hashToken body.enrollmentToken) with
  | none => .error .invalid
  | some (key, token) => do
    check cfg.folding token (s.sites token.siteId) body now
    return { request := .redeem body sourceIp, key, now, read := token
             locked := cfg.rowLocks }

/-- The conditional update of a redemption. -/
def consume (s : State) (x : Txn) (body : EnrollRequest)
    (sourceIp : Option String) (agentId agentToken : String) :
    Except Reason Txn :=
  match s.tokens x.key with
  | none => .error .concurrentUse
  | some token =>
    if spendable x.now token then
      .ok { x with
        written := some (spend x.now token)
        agent := some (newAgent cfg x.key (spend x.now token) body sourceIp
          x.now agentId agentToken) }
    else .error .concurrentUse

def next (s : State) : Action → State
  | .create id body plaintext expiresAt =>
    { s with
      ids := id :: s.ids
      tokens := Function.update s.tokens id
        (some (newToken cfg body plaintext expiresAt)) }
  | .redeem t now body sourceIp =>
    match load cfg s now body sourceIp with
    | .error _ => s
    | .ok x => { s with txns := s.txns.put t x }
  | .consume t agentId agentToken =>
    match s.txns.get t with
    | none => s
    | some x =>
      match x.request with
      | .revoke _ => s
      | .redeem body sourceIp =>
        match consume cfg s x body sourceIp agentId agentToken with
        | .error _ => { s with txns := s.txns.close t }
        | .ok y => { s with txns := s.txns.put t y }
  | .revoke t key now operator =>
    match s.tokens key with
    | none => s
    | some token =>
      -- revoked already: there is nothing to write
      if token.revoked then s
      else
        { s with
          txns := s.txns.put t
            { request := .revoke operator, key, now, read := token } }
  | .write t =>
    match s.txns.get t with
    | none => s
    | some x =>
      match x.request, s.tokens x.key with
      | .revoke operator, some token =>
        { s with
          txns := s.txns.put t
            { x with written := some (revokeEdit x.now operator token) } }
      | _, _ => s
  | .commit t =>
    match s.txns.get t with
    | none => s
    | some x =>
      { s with
        tokens := Function.update s.tokens x.key x.written
        agents := x.agent.toList ++ s.agents
        txns := s.txns.close t }
  | .rollback t => { s with txns := s.txns.close t }

/-- Tokens, their redemptions and their revocations. -/
def system : System State Action := ⟨enabled cfg, next cfg⟩

end NodeLink.Server.EnrollmentTokens
