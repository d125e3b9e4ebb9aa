import Mathlib.Data.Prod.Lex
import Mathlib.Data.List.Dedup
import NodeLink.Lib.JsonUnique
import NodeLink.Lib.Utf8
import NodeLink.Server.Audit
import NodeLink.Server.Operators

/-!
# Approvals

`core/approvals.py`: the rules that decide whether a dispatch needs other
people to agree, and whether they did. Times are microseconds; SHA-256 is a
parameter. The decisions of a request are given as the rows recorded for it.
-/

namespace NodeLink.Server

open Lib

inductive ApprovalRequestStatus where
  | pending
  | approved
  | rejected
  | cancelled
  | expired
  | consumed
  deriving DecidableEq, Repr

/-- `_LIVE_STATUSES` -/
def ApprovalRequestStatus.live : ApprovalRequestStatus → Bool
  | .pending | .approved => true
  | _ => false

/-- A row of `approval_requests`, but for its key. -/
structure ApprovalRequest where
  agentID : String
  clientID : Option String
  siteID : Option String
  kind : CommandKind
  payload : StoredJson
  payloadSHA256 : String
  policyID : Option String
  requiredApprovals : Nat
  requestedByOperatorID : Option String
  requestedByEmail : String
  reason : String
  status : ApprovalRequestStatus
  createdAt : Int
  expiresAt : Int
  decidedAt : Option Int := none
  consumedAt : Option Int := none
  closedAt : Option Int := none
  closedByEmail : Option String := none
  closedReason : Option String := none

inductive ApprovalDecisionKind where
  | approve
  | reject
  deriving DecidableEq, Repr

/-- A row of `approval_decisions`. -/
structure ApprovalDecision where
  requestID : String
  operatorID : String
  operatorEmail : String
  operatorRole : OperatorRole
  decision : ApprovalDecisionKind
  reason : String
  createdAt : Int
  deriving DecidableEq, Repr

structure ApprovalPolicy where
  id : String
  scope : MonitoringScope
  scopeID : Option String
  commandKinds : List CommandKind
  requiredApprovals : Nat
  requestTTLSeconds : Int
  enabled : Bool
  emergencyOverrideAllowed : Bool
  createdAt : Int
  deriving DecidableEq, Repr

/-- What an approval's rules read, besides the approval itself. -/
structure ApprovalTables extends Authority where
  policies : List ApprovalPolicy

/-! ## The execution binding -/

/-- The document that is hashed. -/
def bindingDocument (agentID : String) (kind : CommandKind)
    (payload : StoredJson) : StoredJson :=
  .obj [("v", .num (.ofInt 1)), ("agent_id", .str agentID),
    ("kind", .str kind.value), ("payload", payload)]

/-- `binding_digest` -/
def bindingDigest (sha256Hex : Bytes → String) (agentID : String)
    (kind : CommandKind) (payload : StoredJson) : String :=
  sha256Hex (utf8 (dumpsSorted (bindingDocument agentID kind payload)))

/-! ## Policies -/

/-- `_SCOPE_SPECIFICITY` -/
def MonitoringScope.specificity : MonitoringScope → Int
  | .agent => 3
  | .site => 2
  | .client => 1
  | .global => 0

/-- The policy is enabled, names the kind and takes in the agent. -/
def ApprovalPolicy.governs (policy : ApprovalPolicy)
    (clientID : Option String) (agent : AgentPlace) (kind : CommandKind) :
    Bool :=
  policy.enabled && decide (kind ∈ policy.commandKinds) &&
    match policy.scope with
    | .global => true
    | .client => decide (policy.scopeID = clientID)
    | .site => decide (policy.scopeID = some agent.siteID)
    | .agent => decide (policy.scopeID = some agent.id)

/-- `(-specificity, created_at, id)` -/
def ApprovalPolicy.sortKey (policy : ApprovalPolicy) :
    Lex (Int × Lex (Int × String)) :=
  toLex (-policy.scope.specificity, toLex (policy.createdAt, policy.id))

/-- `resolve_policy` -/
def resolvePolicy (tables : ApprovalTables) (agent : AgentPlace)
    (kind : CommandKind) : Option ApprovalPolicy :=
  (tables.policies.filter
    (·.governs (tables.agentClientID agent) agent kind)).argmin
      ApprovalPolicy.sortKey

def minRequestTTLSeconds : Int := 60

def maxRequestTTLSeconds : Int := 7 * 24 * 3600

/-- `request_expiry` -/
def requestExpiry (policy : ApprovalPolicy) (now : Int) : Int :=
  now + max minRequestTTLSeconds
    (min policy.requestTTLSeconds maxRequestTTLSeconds) * 1000000

/-! ## Approvers -/

/-- Why an identity may not approve, or `none` when it may. -/
def approverRefusal (auth : Authority) (operator : Operator)
    (agent : AgentPlace) (kind : CommandKind)
    (requesterOperatorID : Option String) : Option String :=
  if operator.disabled then some "approver_disabled"
  else if requesterOperatorID = some operator.id then
    some "approver_is_requester"
  else
    match auth.clientAction operator (auth.agentClientID agent)
        .clientOperator with
    | .notVisible => some "approver_tenant_not_visible"
    | .roleInsufficient => some "approver_client_role_insufficient"
    | .allowed =>
      if (authorizeCommand operator agent kind).allowed then none
      else some ("approver_" ++ (authorizeCommand operator agent kind).reason)

/-- `approver_eligibility` -/
def approverEligible (auth : Authority) (operator : Operator)
    (agent : AgentPlace) (kind : CommandKind)
    (requesterOperatorID : Option String) : Bool :=
  (approverRefusal auth operator agent kind requesterOperatorID).isNone

/-! ## Deadlines and decisions -/

/-- The request is live and its deadline has passed. -/
def ApprovalRequest.due (request : ApprovalRequest) (now : Int) : Bool :=
  request.status.live && decide (request.expiresAt ≤ now)

/-- What `expire_if_due` writes when the request is due. -/
def ApprovalRequest.expire (now : Int) (request : ApprovalRequest) :
    ApprovalRequest :=
  { request with
    status := .expired
    closedAt := some now
    closedReason := some "request_ttl_elapsed" }

/-- The identities that have approved. -/
def approvers (decisions : List ApprovalDecision) : List String :=
  (decisions.filter fun d => decide (d.decision = .approve)).map (·.operatorID)

/-- `approval_count` -/
def approvalCount (decisions : List ApprovalDecision) : Nat :=
  (approvers decisions).dedup.length

/-- `decision_refusal` -/
def decisionRefusal (request : ApprovalRequest)
    (decisions : List ApprovalDecision) (operator : Operator) (now : Int) :
    Option String :=
  if request.status = .expired ∨ request.expiresAt ≤ now then
    some "approval_request_expired"
  else if ¬ request.status.live then some "approval_request_not_pending"
  else if request.status = .approved then
    some "approval_request_already_approved"
  else if request.requestedByOperatorID = some operator.id then
    some "approval_self_not_permitted"
  else if decisions.any fun d => decide (d.operatorID = operator.id) then
    some "approval_already_recorded"
  else none

/-! ## Spending -/

structure ConsumptionCheck where
  allowed : Bool
  reason : String
  approverIDs : List String := []
  deriving DecidableEq, Repr

/-- The approvers who could still dispatch the command themselves. -/
def stillEligible (auth : Authority) (request : ApprovalRequest)
    (decisions : List ApprovalDecision) (agent : AgentPlace)
    (kind : CommandKind) : List String :=
  (approvers decisions).filter fun id =>
    (auth.operators id).any fun approver =>
      approverEligible auth approver agent kind request.requestedByOperatorID

/-- `consumption_refusal` -/
def consumptionRefusal (sha256Hex : Bytes → String) (auth : Authority)
    (request : ApprovalRequest) (decisions : List ApprovalDecision)
    (operator : Operator) (agent : AgentPlace) (kind : CommandKind)
    (payload : StoredJson) (now : Int) : ConsumptionCheck :=
  if request.agentID ≠ agent.id then
    ⟨false, "approval_request_agent_mismatch", []⟩
  else if request.kind ≠ kind then
    ⟨false, "approval_request_kind_mismatch", []⟩
  else if request.payloadSHA256 ≠ bindingDigest sha256Hex agent.id kind payload
  then ⟨false, "approval_request_payload_mismatch", []⟩
  else if request.requestedByOperatorID ≠ some operator.id then
    ⟨false, "approval_request_requester_mismatch", []⟩
  else if request.status = .expired ∨ request.expiresAt ≤ now then
    ⟨false, "approval_request_expired", []⟩
  else if request.status = .consumed then
    ⟨false, "approval_request_already_consumed", []⟩
  else if request.status ≠ .approved then
    ⟨false, "approval_request_not_approved", []⟩
  else if (stillEligible auth request decisions agent kind).length
      < request.requiredApprovals then
    ⟨false, "approval_approver_no_longer_eligible", []⟩
  else ⟨true, "approval_satisfied",
    (stillEligible auth request decisions agent kind).insertionSort (· ≤ ·)⟩

end NodeLink.Server
