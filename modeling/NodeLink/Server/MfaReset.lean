import NodeLink.Server.EmailCodes
import NodeLink.Server.MfaCeremonies
import NodeLink.Server.OperatorSessions

/-!
# Logging in with a second factor, and the reset

`decide_login` and `revoke_all_factors` of `core/mfa.py`, the factor of
`core/mfa_email.py`, and the handlers of `api/mfa.py` that complete a login, prove
a mailbox, or reset an operator. A handler is one transaction here, for the
operator its dependency has let in; what the rate limiters turn away reads
nothing.
-/

namespace NodeLink.Server.MfaReset

open Lib OperatorSessions

/-- `mfa_email.policy_mode` -/
inductive EmailPolicy where
  | off
  | fallbackOnly
  | always
  deriving DecidableEq, Repr

structure Config where
  sessions : OperatorSessions.Settings := {}
  ceremonies : MfaCeremonies.Config
  codes : EmailCodes.Config
  /-- `str.upper` -/
  upper : String → String
  /-- `relying_party` resolves. -/
  relyingParty : Bool := true
  emailPolicy : EmailPolicy := .off

/-- `MfaRecoveryCode` -/
structure RecoveryCode where
  id : Nat
  operatorId : String
  batchId : String
  codeHash : String
  createdAt : Int
  usedAt : Option Int := none
  deriving DecidableEq, Repr

/-- `MfaEmailFactor` -/
structure EmailFactor where
  operatorId : String
  address : String
  verifiedAt : Option Int := none
  createdAt : Int
  deriving DecidableEq, Repr

/-- The tables that a login reads. -/
structure Site where
  accounts : OperatorSessions.State
  /-- `Operator.email` -/
  emails : String → String
  ceremonies : MfaCeremonies.State := {}
  recoveryCodes : List RecoveryCode := []
  /-- `Operator.mfa_recovery_codes_generated_at` -/
  generatedAt : String → Option Int := fun _ => none
  emailFactors : List EmailFactor := []
  emailCodes : String → EmailCodes.State := fun _ => {}

variable (cfg : Config) (site : Site)

/-- Later, with nothing else changed. -/
def Site.at (now : Int) : Site :=
  { site with
    accounts := { site.accounts with now }
    ceremonies := { site.ceremonies with clock := now }
    emailCodes := fun id => { site.emailCodes id with clock := now } }

/-! ## The login decision -/

/-- `has_active_credential` -/
def hasActiveCredential (id : String) : Bool :=
  !(site.ceremonies.activeCredentials id).isEmpty

def unusedRecoveryCodes (id : String) : List RecoveryCode :=
  site.recoveryCodes.filter fun c =>
    decide (c.operatorId = id) && c.usedAt.isNone

/-- `get_factor` -/
def getFactor (id : String) : Option EmailFactor :=
  site.emailFactors.find? fun f => decide (f.operatorId = id)

/-- `factor_is_usable` -/
def factorIsUsable (factor : EmailFactor) (email : String) : Bool :=
  factor.verifiedAt.isSome &&
    decide (EmailCodes.normalizeAddress cfg.codes.texts factor.address =
      EmailCodes.normalizeAddress cfg.codes.texts email)

/-- `has_usable_factor` -/
def hasUsableFactor (id : String) : Bool :=
  (getFactor site id).any fun f => factorIsUsable cfg f (site.emails id)

inductive LoginMethod where
  | webauthn
  | recoveryCode
  | emailCode
  | enrollment
  deriving DecidableEq, Repr

structure LoginDecision where
  secondFactorRequired : Bool
  enrollmentRequired : Bool
  methods : List LoginMethod
  deriving DecidableEq, Repr

/-- `decide_login` -/
def decideLogin (id : String) (operator : OperatorRow) : LoginDecision :=
  if cfg.sessions.mfaEnforcement = .off then ⟨false, false, []⟩
  else
    let emailAvailable :=
      decide (cfg.emailPolicy ≠ .off) && hasUsableFactor cfg site id
    if hasActiveCredential site id then
      ⟨true, false, .webauthn ::
        ((if (unusedRecoveryCodes site id).isEmpty then [] else [.recoveryCode]) ++
          if emailAvailable && decide (cfg.emailPolicy = .always) then [.emailCode]
          else [])⟩
    else if emailAvailable then ⟨true, false, [.emailCode]⟩
    else if enrollmentIsRequired cfg.sessions operator then
      ⟨true, true, [.enrollment]⟩
    else ⟨false, false, []⟩

/-! ## Completing a login -/

/-- A session for the operator, and its token. -/
def Site.open (id sid : String) (amr : List AuthMethod) (stepUp : Bool) : Site :=
  { site with
    accounts := completeLogin cfg.sessions site.accounts id sid amr stepUp false }

/-- `_verify_assertion_for`, with the challenge that it selects. -/
def verifyAssertionFor (id : String) (purpose : MfaCeremonies.Purpose)
    (body : MfaCeremonies.AssertionVerification) (pick : Option Nat) :
    MfaCeremonies.Txn :=
  let s := site.ceremonies
  let x := MfaCeremonies.stepLook s <| MfaCeremonies.stepClaim s <|
    MfaCeremonies.select s pick
      { request := .assertion purpose body, operatorId := id }
  match MfaCeremonies.examine cfg.ceremonies x with
  | none => x
  | some (c, verdict) => MfaCeremonies.settle s c x verdict

/-- `complete_login_with_webauthn` -/
def completeLoginWithWebauthn (id sid : String)
    (body : MfaCeremonies.AssertionVerification) (pick : Option Nat) :
    Bool × Site :=
  if cfg.sessions.mfaEnforcement = .off || !cfg.relyingParty then (false, site)
  else
    let x := verifyAssertionFor cfg site id .authentication body pick
    let site := { site with ceremonies := site.ceremonies.commit x }
    if x.accepted.isSome then
      (true, site.open cfg id sid [.password, .webauthn] true)
    else (false, site)

def recoveryAlphabet : List Char := "ABCDEFGHJKMNPQRSTUVWXYZ23456789".toList

/-- `normalize_recovery_code` -/
def normalizeRecoveryCode (value : String) : String :=
  String.ofList ((cfg.upper (strip value)).toList.filter fun c =>
    decide (c ∈ recoveryAlphabet))

/-- Older codes first. -/
def RecoveryCode.le (a b : RecoveryCode) : Bool :=
  decide (a.createdAt < b.createdAt ∨ (a.createdAt = b.createdAt ∧ a.id ≤ b.id))

/-- The code that `consume_recovery_code` spends. -/
def consumeRecoveryCode (id presented : String) : Option RecoveryCode :=
  let normalized := normalizeRecoveryCode cfg presented
  if normalized = "" then none
  else ((unusedRecoveryCodes site id).mergeSort RecoveryCode.le).find? fun c =>
    cfg.codes.texts.checkpw normalized c.codeHash

/-- `complete_login_with_recovery_code` -/
def completeLoginWithRecoveryCode (id sid presented : String) : Bool × Site :=
  if cfg.sessions.mfaEnforcement = .off || !cfg.relyingParty then (false, site)
  else
    match consumeRecoveryCode cfg site id presented with
    | none => (false, site)
    | some used =>
      let spent := site.recoveryCodes.map fun c =>
        if c.id = used.id then { c with usedAt := some site.accounts.now } else c
      (true, { site with recoveryCodes := spent }.open cfg id sid
        [.password, .recoveryCode] false)

/-- The rows that `consume_code` finds: the live codes, and those of the replay
scan. -/
structure Found where
  live : List EmailCodes.EmailCode
  recent : List EmailCodes.EmailCode
  deriving DecidableEq, Repr

/-- `consume_code` -/
def consumeCode (id presented : String) (purpose : EmailCodes.Purpose)
    (found : Found) : EmailCodes.Txn :=
  let s := site.emailCodes id
  let x := EmailCodes.compareCode cfg.codes <| EmailCodes.load s found.live
    { request := .consume presented purpose, email := site.emails id }
  EmailCodes.flush s <|
    match x.stage with
    | .unmatched => EmailCodes.replay cfg.codes found.recent x
    | .matched _ => EmailCodes.claim s x
    | _ => x

/-- What `consume_code` leaves of the codes. -/
def Site.consumed (id : String) (x : EmailCodes.Txn) : Site :=
  let s := site.emailCodes id
  { site with
    emailCodes :=
      Function.update site.emailCodes id { s with codes := s.codes.map x.write } }

/-- `_require_email_enabled` -/
def emailEnabled : Bool :=
  decide (cfg.sessions.mfaEnforcement ≠ .off) && cfg.relyingParty &&
    decide (cfg.emailPolicy ≠ .off)

/-- `complete_login_with_email_code` -/
def completeLoginWithEmailCode (id sid presented : String)
    (operator : OperatorRow) (found : Found) : Bool × Site :=
  if !emailEnabled cfg then (false, site)
  else if .emailCode ∉ (decideLogin cfg site id operator).methods then
    (false, site)
  else
    let x := consumeCode cfg site id presented .login found
    let site := site.consumed id x
    if x.stage = .flushed .accepted then
      (true, site.open cfg id sid [.password, .emailCode] false)
    else (false, site)

/-- `verify_email_enrollment` -/
def verifyEmailEnrollment (id presented : String) (found : Found) : Bool × Site :=
  if !emailEnabled cfg then (false, site)
  else
    let x := consumeCode cfg site id presented .enrollment found
    if (getFactor site id).isNone || decide (x.stage ≠ .flushed .accepted) then
      (false, site.consumed id x)
    else
      let verified := site.emailFactors.map fun f =>
        if f.operatorId = id then
          { f with verifiedAt := some site.accounts.now }
        else f
      (true, { site.consumed id x with emailFactors := verified })

/-! ## The reset -/

/-- `revoke_all_factors`, with the authenticators and the codes it counts. -/
def revokeAllFactors (id : String) : (Nat × Nat) × Site :=
  let ceremonies := site.ceremonies
  let revoked := ceremonies.credentials.map fun k =>
    if k.operatorId = id ∧ k.revokedAt = none then
      { k with revokedAt := some site.accounts.now }
    else k
  let counts := ((ceremonies.activeCredentials id).length,
    (site.recoveryCodes.filter fun c => decide (c.operatorId = id)).length)
  (counts,
    { site with
      ceremonies :=
        { ceremonies with
          credentials := revoked
          challenges :=
            ceremonies.challenges.filter fun c => decide (c.operatorId ≠ id) }
      recoveryCodes :=
        site.recoveryCodes.filter fun c => decide (c.operatorId ≠ id)
      generatedAt := Function.update site.generatedAt id none })

inductive ResetError where
  | mfaDisabled
  | mfaNotConfigured
  | operatorNotFound
  deriving DecidableEq, Repr

/-- The status and the detail of a refused reset. -/
def ResetError.answer : ResetError → Nat × String
  | .mfaDisabled => (503, "mfa_disabled")
  | .mfaNotConfigured => (503, "mfa_not_configured")
  | .operatorNotFound => (404, "Operator not found")

/-- `MfaResetOut` -/
structure MfaResetOut where
  operatorId : String
  credentialsRevoked : Nat
  recoveryCodesInvalidated : Nat
  deriving DecidableEq, Repr

/-- `reset_operator_mfa`, for an administrator who has stepped up. -/
def resetOperatorMfa (id : String) : Except ResetError (MfaResetOut × Site) :=
  if cfg.sessions.mfaEnforcement = .off then .error .mfaDisabled
  else if !cfg.relyingParty then .error .mfaNotConfigured
  else
    match site.accounts.operators id with
    | none => .error .operatorNotFound
    | some _ =>
      let ((credentials, codes), cleared) := revokeAllFactors site id
      .ok (⟨id, credentials, codes⟩,
        { cleared with
          accounts := step cfg.sessions cleared.accounts (.bumpGeneration id) })

end NodeLink.Server.MfaReset
