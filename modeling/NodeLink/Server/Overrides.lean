import NodeLink.Server.Approvals

/-!
# Emergency overrides

`core/emergency_overrides.py`: one authorized person stands in for the
approvers of one exact command, once.
-/

namespace NodeLink.Server

open Lib

inductive EmergencyOverrideStatus where
  | active
  | consumed
  | expired
  | revoked
  deriving DecidableEq, Repr

/-- A row of `emergency_overrides`, but for its key. The notification and the
review are left out. -/
structure EmergencyOverride where
  agentID : String
  clientID : Option String
  siteID : Option String
  kind : CommandKind
  payload : StoredJson
  payloadSHA256 : String
  policyID : Option String
  requiredApprovals : Nat
  activatedByOperatorID : Option String
  activatedByEmail : String
  justification : String
  status : EmergencyOverrideStatus
  createdAt : Int
  expiresAt : Int
  consumedAt : Option Int := none
  revokedAt : Option Int := none
  revokedByEmail : Option String := none
  revokeReason : Option String := none

/-- `activator_eligibility`: why an identity may not activate, or hold, an
override. -/
def activatorRefusal (auth : Authority) (operator : Operator)
    (agent : AgentPlace) (kind : CommandKind)
    (policy : Option ApprovalPolicy) : Option String :=
  if operator.disabled then some "emergency_override_operator_disabled"
  else
    match policy with
    | none => some "emergency_override_not_required"
    | some policy =>
      if ¬ policy.emergencyOverrideAllowed then
        some "emergency_override_not_permitted"
      else
        match auth.clientAction operator (auth.agentClientID agent)
            .clientAdmin with
        | .notVisible => some "emergency_override_tenant_not_visible"
        | .roleInsufficient => some "emergency_override_role_insufficient"
        | .allowed =>
          if (authorizeCommand operator agent kind).allowed then none
          else some ("emergency_override_"
            ++ (authorizeCommand operator agent kind).reason)

def defaultTTLSeconds : Int := 15 * 60

def minTTLSeconds : Int := 60

def maxTTLSeconds : Int := 60 * 60

/-- `override_expiry` -/
def overrideExpiry (ttlSeconds : Option Int) (now : Int) : Int :=
  now + max minTTLSeconds (min (ttlSeconds.getD defaultTTLSeconds)
    maxTTLSeconds) * 1000000

/-- The override is active and its deadline has passed. -/
def EmergencyOverride.due (override : EmergencyOverride) (now : Int) : Bool :=
  decide (override.status = .active) && decide (override.expiresAt ≤ now)

/-- What `expire_if_due` writes when the override is due. -/
def EmergencyOverride.expire (override : EmergencyOverride) :
    EmergencyOverride := { override with status := .expired }

/-- `consumption_refusal`; `policy` is the one that governs the dispatch. -/
def overrideRefusal (sha256Hex : Bytes → String) (auth : Authority)
    (override : EmergencyOverride) (operator : Operator) (agent : AgentPlace)
    (kind : CommandKind) (payload : StoredJson)
    (policy : Option ApprovalPolicy) (now : Int) : ConsumptionCheck :=
  if override.agentID ≠ agent.id then
    ⟨false, "emergency_override_agent_mismatch", []⟩
  else if override.kind ≠ kind then
    ⟨false, "emergency_override_kind_mismatch", []⟩
  else if override.payloadSHA256 ≠ bindingDigest sha256Hex agent.id kind payload
  then ⟨false, "emergency_override_payload_mismatch", []⟩
  else if override.activatedByOperatorID ≠ some operator.id then
    ⟨false, "emergency_override_activator_mismatch", []⟩
  else if override.status = .expired ∨ override.expiresAt ≤ now then
    ⟨false, "emergency_override_expired", []⟩
  else if override.status = .consumed then
    ⟨false, "emergency_override_already_consumed", []⟩
  else if override.status = .revoked then
    ⟨false, "emergency_override_revoked", []⟩
  else if override.status ≠ .active then
    ⟨false, "emergency_override_not_active", []⟩
  else if (activatorRefusal auth operator agent kind policy).isSome then
    ⟨false, "emergency_override_activator_no_longer_eligible", []⟩
  else ⟨true, "emergency_override_satisfied", []⟩

end NodeLink.Server
