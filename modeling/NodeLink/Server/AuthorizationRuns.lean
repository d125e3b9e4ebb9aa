import NodeLink.Lib.RowTxn
import NodeLink.Server.Overrides

/-!
# Authorization records under concurrent requests

`api/approvals.py`, `api/emergency_overrides.py` and the gate of
`dispatch_command` in `api/management.py`, each handler as what it reads and
what it commits later. Requests are rows with a key of their own, and so are
overrides; decisions and commands are only ever inserted. A decision holds the
row of its request, a spend carries the status as a condition, and every other
write is an update by primary key of what was read without a lock.

Gates that only refuse a dispatch are left out: a dispatch may be rolled back
at any point instead.
-/

namespace NodeLink.Server

open Lib

inductive RecordKey where
  | request (id : String)
  | override (id : String)
  deriving DecidableEq, Repr

/-- A row of `approval_requests` or of `emergency_overrides`. -/
inductive AuthRecord where
  | request (r : ApprovalRequest)
  | override (o : EmergencyOverride)

inductive RecordStatus where
  | request (s : ApprovalRequestStatus)
  | override (s : EmergencyOverrideStatus)
  deriving DecidableEq, Repr

def AuthRecord.status : AuthRecord → RecordStatus
  | .request r => .request r.status
  | .override o => .override o.status

/-- Consumed, rejected, cancelled, expired or revoked. -/
def RecordStatus.terminal : RecordStatus → Bool
  | .request s => !s.live
  | .override s => decide (s ≠ .active)

/-- The columns of a command row that concern its authorization. `submitted`
is the payload of the request, before the later gates rewrite it. -/
structure DispatchedCommand where
  agentID : String
  kind : CommandKind
  submitted : StoredJson
  actorOperatorID : String
  approvalRequestID : Option String
  emergencyOverrideID : Option String
  createdAt : Int

inductive AuthInsert where
  | decision (d : ApprovalDecision)
  | command (c : DispatchedCommand)

abbrev AuthTxn := RowTxn RecordKey AuthRecord AuthInsert

abbrev AuthStore := RowStore RecordKey AuthRecord AuthInsert

namespace AuthStore

def requestAt (store : AuthStore) (id : String) : Option ApprovalRequest :=
  match store.table (.request id) with
  | some (.request r) => some r
  | _ => none

def overrideAt (store : AuthStore) (id : String) : Option EmergencyOverride :=
  match store.table (.override id) with
  | some (.override o) => some o
  | _ => none

/-- The decisions recorded for a request. -/
def decisionsOf (store : AuthStore) (id : String) : List ApprovalDecision :=
  store.inserted.filterMap fun
    | .decision d => if d.requestID = id then some d else none
    | .command _ => none

/-- The command rows. -/
def commands (store : AuthStore) : List DispatchedCommand :=
  store.inserted.filterMap fun
    | .decision _ => none
    | .command c => some c

end AuthStore

/-! ## Writes -/

abbrev AuthWrite := RowWrite RecordKey AuthRecord

def AuthRecord.editRequest (f : ApprovalRequest → ApprovalRequest) :
    AuthRecord → AuthRecord
  | .request r => .request (f r)
  | .override o => .override o

def AuthRecord.editOverride (f : EmergencyOverride → EmergencyOverride) :
    AuthRecord → AuthRecord
  | .request r => .request r
  | .override o => .override (f o)

/-- An update by primary key of a request that was read. -/
def updateRequest (id : String) (read : ApprovalRequest)
    (f : ApprovalRequest → ApprovalRequest) : AuthWrite where
  key := .request id
  read := .request read
  guard := fun _ => true
  edit := AuthRecord.editRequest f

def updateOverride (id : String) (read : EmergencyOverride)
    (f : EmergencyOverride → EmergencyOverride) : AuthWrite where
  key := .override id
  read := .override read
  guard := fun _ => true
  edit := AuthRecord.editOverride f

def ApprovalRequest.cancel (now : Int) (email reason : String)
    (r : ApprovalRequest) : ApprovalRequest :=
  { r with
    status := .cancelled
    closedAt := some now
    closedByEmail := some email
    closedReason := some reason }

def ApprovalRequest.reject (now : Int) (email : String)
    (r : ApprovalRequest) : ApprovalRequest :=
  { r with
    status := .rejected
    decidedAt := some now
    closedAt := some now
    closedByEmail := some email
    closedReason := some "rejected_by_approver" }

def ApprovalRequest.approve (now : Int) (r : ApprovalRequest) :
    ApprovalRequest := { r with status := .approved, decidedAt := some now }

def ApprovalRequest.consume (now : Int) (r : ApprovalRequest) :
    ApprovalRequest := { r with status := .consumed, consumedAt := some now }

def EmergencyOverride.revoke (now : Int) (email reason : String)
    (o : EmergencyOverride) : EmergencyOverride :=
  { o with
    status := .revoked
    revokedAt := some now
    revokedByEmail := some email
    revokeReason := some reason }

def EmergencyOverride.consume (now : Int) (o : EmergencyOverride) :
    EmergencyOverride := { o with status := .consumed, consumedAt := some now }

/-- `_spend_approval`: the update holds of an approved row only. -/
def spendApproval (id : String) (read : ApprovalRequest) (now : Int) :
    AuthWrite :=
  { updateRequest id read (·.consume now) with
    guard := fun row => decide (row.status = .request .approved) }

/-- `_spend_emergency_override` -/
def spendEmergencyOverride (id : String) (read : EmergencyOverride)
    (now : Int) : AuthWrite :=
  { updateOverride id read (·.consume now) with
    guard := fun row => decide (row.status = .override .active) }

/-! ## Handlers of approval requests -/

/-- The lazy expiry of a request that was loaded. -/
def expireRequest (id : String) (r : ApprovalRequest) (now : Int) : AuthTxn :=
  { writes := [updateRequest id r (·.expire now)] }

section Handlers

variable (tables : ApprovalTables) (store : AuthStore)

/-- `_load_request` without a lock: nothing is found where nothing may be
seen. -/
def loadRequest (operator : Operator) (id : String) :
    Option ApprovalRequest :=
  (store.requestAt id).filter fun r =>
    tables.assertClientVisible operator r.clientID

/-- `get_approval_request` -/
def getApprovalRequest (operator : Operator) (id : String) (now : Int) :
    AuthTxn :=
  match loadRequest tables store operator id with
  | none => {}
  | some r => if r.due now then expireRequest id r now else {}

/-- The row of a listing that is due. -/
def expireListed (operator : Operator) (now : Int) (id : String) :
    Option AuthWrite :=
  ((loadRequest tables store operator id).filter fun r => r.due now).map
    fun r => updateRequest id r (·.expire now)

/-- `list_approval_requests`, for the rows its filters select. -/
def listApprovalRequests (operator : Operator) (ids : List String)
    (now : Int) : AuthTxn :=
  { writes := ids.filterMap (expireListed tables store operator now) }

/-- `cancel_request` -/
def cancelRequest (operator : Operator) (id reason : String) (now : Int) :
    AuthTxn :=
  match loadRequest tables store operator id with
  | none => {}
  | some r =>
    if r.due now then expireRequest id r now
    else if r.requestedByOperatorID ≠ some operator.id
        ∧ tables.clientAction operator r.clientID .clientAdmin ≠ .allowed then {}
    else if r.status.live then
      { writes := [updateRequest id r (·.cancel now operator.email reason)] }
    else {}

/-- The write a verdict comes to, if any. -/
def verdictWrites (verdict : ApprovalDecisionKind) (operator : Operator)
    (id : String) (r : ApprovalRequest) (recorded : List ApprovalDecision)
    (now : Int) : List AuthWrite :=
  match verdict with
  | .reject => [updateRequest id r (·.reject now operator.email)]
  | .approve =>
    if r.requiredApprovals ≤ approvalCount recorded then
      [updateRequest id r (·.approve now)]
    else []

def approvalDecision (verdict : ApprovalDecisionKind) (operator : Operator)
    (id reason : String) (now : Int) : ApprovalDecision where
  requestID := id
  operatorID := operator.id
  operatorEmail := operator.email
  operatorRole := operator.role
  decision := verdict
  reason := reason
  createdAt := now

/-- `_record_decision`: the row is held from the read on. -/
def recordDecision (verdict : ApprovalDecisionKind) (operator : Operator)
    (id reason : String) (now : Int) : AuthTxn :=
  match loadRequest tables store operator id with
  | none => {}
  | some r =>
    if r.due now then { expireRequest id r now with held := [.request id] }
    else
      match tables.directory.agentSite r.agentID with
      | none => {}
      | some siteID =>
        if (decisionRefusal r (store.decisionsOf id) operator now).isSome then {}
        else if approverEligible tables.toAuthority operator ⟨r.agentID, siteID⟩
            r.kind r.requestedByOperatorID then
          { held := [.request id]
            writes := verdictWrites verdict operator id r
              (store.decisionsOf id
                ++ [approvalDecision verdict operator id reason now]) now
            inserts := [.decision
              (approvalDecision verdict operator id reason now)] }
        else {}

/-! ## Handlers of overrides -/

def loadOverride (operator : Operator) (id : String) :
    Option EmergencyOverride :=
  (store.overrideAt id).filter fun o =>
    tables.assertClientVisible operator o.clientID

def expireOverride (id : String) (o : EmergencyOverride) : AuthTxn :=
  { writes := [updateOverride id o (·.expire)] }

/-- `get_emergency_override` -/
def getEmergencyOverride (operator : Operator) (id : String) (now : Int) :
    AuthTxn :=
  match loadOverride tables store operator id with
  | none => {}
  | some o => if o.due now then expireOverride id o else {}

def expireListedOverride (operator : Operator) (now : Int) (id : String) :
    Option AuthWrite :=
  ((loadOverride tables store operator id).filter fun o => o.due now).map
    fun o => updateOverride id o (·.expire)

/-- `list_emergency_overrides`, for the rows its filters select. -/
def listEmergencyOverrides (operator : Operator) (ids : List String)
    (now : Int) : AuthTxn :=
  { writes := ids.filterMap (expireListedOverride tables store operator now) }

/-- `revoke_emergency_override` -/
def revokeEmergencyOverride (operator : Operator) (id reason : String)
    (now : Int) : AuthTxn :=
  match loadOverride tables store operator id with
  | none => {}
  | some o =>
    if o.due now then expireOverride id o
    else if o.activatedByOperatorID ≠ some operator.id
        ∧ tables.clientAction operator o.clientID .clientAdmin ≠ .allowed then {}
    else if o.status = .active then
      { writes := [updateOverride id o (·.revoke now operator.email reason)] }
    else {}

/-! ## Dispatch -/

/-- The arguments of a dispatch the gate looks at. -/
structure DispatchRequest where
  agentID : String
  kind : CommandKind
  payload : StoredJson
  approvalRequestID : Option String
  emergencyOverrideID : Option String

def dispatchedCommand (operator : Operator) (body : DispatchRequest)
    (now : Int) : DispatchedCommand where
  agentID := body.agentID
  kind := body.kind
  submitted := body.payload
  actorOperatorID := operator.id
  approvalRequestID := body.approvalRequestID
  emergencyOverrideID := body.emergencyOverrideID
  createdAt := now

/-- The branch of `_apply_approval_policy` for an approval, and the commit of
the dispatch it lets through. -/
def dispatchApproved (sha256Hex : Bytes → String) (operator : Operator)
    (agent : AgentPlace) (body : DispatchRequest) (id : String) (now : Int) :
    AuthTxn :=
  match store.requestAt id with
  | none => {}
  | some r =>
    if r.clientID ≠ tables.agentClientID agent then {}
    else if r.due now then expireRequest id r now
    else if (consumptionRefusal sha256Hex tables.toAuthority r
        (store.decisionsOf id) operator agent body.kind body.payload
        now).allowed then
      { writes := [spendApproval id r now]
        inserts := [.command (dispatchedCommand operator body now)] }
    else {}

/-- The branch for an emergency override. -/
def dispatchOverridden (sha256Hex : Bytes → String) (operator : Operator)
    (agent : AgentPlace) (body : DispatchRequest) (id : String) (now : Int) :
    AuthTxn :=
  match store.overrideAt id with
  | none => {}
  | some o =>
    if o.clientID ≠ tables.agentClientID agent then {}
    else if o.due now then expireOverride id o
    else if (overrideRefusal sha256Hex tables.toAuthority o operator agent
        body.kind body.payload (resolvePolicy tables agent body.kind)
        now).allowed then
      { writes := [spendEmergencyOverride id o now]
        inserts := [.command (dispatchedCommand operator body now)] }
    else {}

/-- `_apply_approval_policy` and what `dispatch_command` commits after it. -/
def gateDispatch (sha256Hex : Bytes → String) (operator : Operator)
    (agent : AgentPlace) (body : DispatchRequest) (now : Int) : AuthTxn :=
  match resolvePolicy tables agent body.kind, body.approvalRequestID,
      body.emergencyOverrideID with
  | none, none, none =>
    { inserts := [.command (dispatchedCommand operator body now)] }
  | none, _, _ => {}
  | some _, some _, some _ => {}
  | some _, none, some id =>
    dispatchOverridden tables store sha256Hex operator agent body id now
  | some _, some id, none =>
    dispatchApproved tables store sha256Hex operator agent body id now
  | some _, none, none => {}

/-- `dispatch_command` -/
def dispatchCommand (sha256Hex : Bytes → String) (operator : Operator)
    (body : DispatchRequest) (now : Int) : AuthTxn :=
  match tables.directory.agentSite body.agentID with
  | none => {}
  | some siteID =>
    if ¬ tables.isClientVisible operator
        (tables.agentClientID ⟨body.agentID, siteID⟩) then {}
    else if body.kind = .agentSelfUpdate then {}
    else if (authorizeCommand operator ⟨body.agentID, siteID⟩
        body.kind).allowed then
      gateDispatch tables store sha256Hex operator ⟨body.agentID, siteID⟩ body
        now
    else {}

end Handlers

/-! ## New records -/

def maxOpenRequestsPerOperator : Nat := 50

/-- `create_approval_request`. The payload is what validation returned, and
`openRequests` counts the operator's live requests for the client. -/
def createApprovalRequest (sha256Hex : Bytes → String)
    (tables : ApprovalTables) (operator : Operator) (agentID : String)
    (kind : CommandKind) (payload : StoredJson) (reason : String)
    (openRequests : Nat) (now : Int) : Option ApprovalRequest :=
  match tables.directory.agentSite agentID with
  | none => none
  | some siteID =>
    if tables.clientAction operator (tables.agentClientID ⟨agentID, siteID⟩)
          .clientOperator = .allowed
        ∧ (authorizeCommand operator ⟨agentID, siteID⟩ kind).allowed = true
        ∧ openRequests < maxOpenRequestsPerOperator then
      (resolvePolicy tables ⟨agentID, siteID⟩ kind).map fun policy =>
        { agentID
          clientID := tables.agentClientID ⟨agentID, siteID⟩
          siteID := some siteID
          kind
          payload
          payloadSHA256 := bindingDigest sha256Hex agentID kind payload
          policyID := some policy.id
          requiredApprovals := policy.requiredApprovals
          requestedByOperatorID := some operator.id
          requestedByEmail := operator.email
          reason
          status := .pending
          createdAt := now
          expiresAt := requestExpiry policy now }
    else none

def maxOpenOverridesPerOperator : Nat := 5

/-- `activate_emergency_override`. `openCount` counts the operator's active
overrides for the client. -/
def activateEmergencyOverride (sha256Hex : Bytes → String)
    (tables : ApprovalTables) (operator : Operator) (agentID : String)
    (kind : CommandKind) (payload : StoredJson) (justification : String)
    (ttlSeconds : Option Int) (openCount : Nat) (now : Int) :
    Option EmergencyOverride :=
  match tables.directory.agentSite agentID with
  | none => none
  | some siteID =>
    if tables.assertClientVisible operator
          (tables.agentClientID ⟨agentID, siteID⟩) = true
        ∧ activatorRefusal tables.toAuthority operator ⟨agentID, siteID⟩ kind
            (resolvePolicy tables ⟨agentID, siteID⟩ kind) = none
        ∧ openCount < maxOpenOverridesPerOperator then
      (resolvePolicy tables ⟨agentID, siteID⟩ kind).map fun policy =>
        { agentID
          clientID := tables.agentClientID ⟨agentID, siteID⟩
          siteID := some siteID
          kind
          payload
          payloadSHA256 := bindingDigest sha256Hex agentID kind payload
          policyID := some policy.id
          requiredApprovals := policy.requiredApprovals
          activatedByOperatorID := some operator.id
          activatedByEmail := operator.email
          justification
          status := .active
          createdAt := now
          expiresAt := overrideExpiry ttlSeconds now }
    else none

/-! ## Requests in any order -/

/-- A request of an operator that touches records which exist. -/
inductive AuthRequest where
  | get (id : String)
  | list (ids : List String)
  | cancel (id reason : String)
  | decide (verdict : ApprovalDecisionKind) (id reason : String)
  | getOverride (id : String)
  | listOverrides (ids : List String)
  | revoke (id reason : String)
  | dispatch (body : DispatchRequest)

/-- The least role a route asks for. -/
def AuthRequest.minimumRole : AuthRequest → OperatorRole
  | .cancel .. | .decide .. | .revoke .. => .operator
  | _ => .readonly

/-- `_ROLE_RANK` -/
def OperatorRole.rank : OperatorRole → Nat
  | .readonly => 0
  | .operator => 1
  | .admin => 2

/-- The operator a request is answered for: enabled, and of the route's
role. -/
def currentOperator (tables : ApprovalTables) (operatorID : String)
    (minimum : OperatorRole) : Option Operator :=
  (tables.operators operatorID).filter fun operator =>
    !operator.disabled && decide (minimum.rank ≤ operator.role.rank)

/-- What a request reads, holds and is going to write. -/
def AuthRequest.txn (sha256Hex : Bytes → String) (tables : ApprovalTables)
    (store : AuthStore) (operator : Operator) (now : Int) :
    AuthRequest → AuthTxn
  | .get id => getApprovalRequest tables store operator id now
  | .list ids => listApprovalRequests tables store operator ids now
  | .cancel id reason => cancelRequest tables store operator id reason now
  | .decide verdict id reason =>
    recordDecision tables store verdict operator id reason now
  | .getOverride id => getEmergencyOverride tables store operator id now
  | .listOverrides ids => listEmergencyOverrides tables store operator ids now
  | .revoke id reason =>
    revokeEmergencyOverride tables store operator id reason now
  | .dispatch body => dispatchCommand tables store sha256Hex operator body now

/-- The tables authority is read from, and the records. -/
structure AuthState where
  tables : ApprovalTables
  store : AuthStore

namespace AuthState

/-- Transaction `t` is a dispatch that will create a command. -/
def Dispatching (s : AuthState) (t : Nat) : Prop :=
  ∃ c, AuthInsert.command c ∈ (s.store.txns t).inserts

/-- The unique constraint on `(request_id, operator_id)`. -/
def UniqueDecisions (s : AuthState) (t : Nat) : Prop :=
  ∀ d, AuthInsert.decision d ∈ (s.store.txns t).inserts →
    ∀ e, AuthInsert.decision e ∈ s.store.inserted →
      (d.requestID, d.operatorID) ≠ (e.requestID, e.operatorID)

end AuthState

/-- Which commits are considered, and when operators, memberships and policies
may be edited. -/
structure Permitted where
  commit : AuthState → Nat → Prop
  edit : AuthState → Prop

/-- Any commit may happen, and an edit while no dispatch is under way: a
dispatch is judged by the tables it read. -/
def anyCommit : Permitted where
  commit := fun _ _ => True
  edit := fun s => ∀ t, ¬ s.Dispatching t

/-- One step. `may` restricts the commits and the edits that are considered. -/
inductive AuthStep (sha256Hex : Bytes → String) (may : Permitted)
    (s : AuthState) : AuthState → Prop where
  | receive (t : Nat) (request : AuthRequest) (operatorID : String) (now : Int)
      {operator : Operator}
      (hoperator : currentOperator s.tables operatorID request.minimumRole =
        some operator)
      (hidle : s.store.txns t = {})
      (hreads : s.store.Reads t
        (request.txn sha256Hex s.tables s.store operator now)) :
      AuthStep sha256Hex may s
        { s with
          store := s.store.read t
            (request.txn sha256Hex s.tables s.store operator now) }
  | commit (t : Nat) (hmay : may.commit s t) (hcommits : s.store.Commits t)
      (hunique : s.UniqueDecisions t) :
      AuthStep sha256Hex may s { s with store := s.store.commit t }
  | rollback (t : Nat) :
      AuthStep sha256Hex may s { s with store := s.store.abort t }
  | create (id operatorID agentID : String) (kind : CommandKind)
      (payload : StoredJson) (reason : String) (openRequests : Nat) (now : Int)
      {operator : Operator} {r : ApprovalRequest}
      (hoperator : currentOperator s.tables operatorID .operator = some operator)
      (hfresh : s.store.table (.request id) = none)
      (hcreated : createApprovalRequest sha256Hex s.tables operator agentID kind
        payload reason openRequests now = some r) :
      AuthStep sha256Hex may s
        { s with store := s.store.create (.request id) (.request r) }
  | activate (id operatorID agentID : String) (kind : CommandKind)
      (payload : StoredJson) (justification : String) (ttlSeconds : Option Int)
      (openCount : Nat) (now : Int) {operator : Operator}
      {o : EmergencyOverride}
      (hoperator : currentOperator s.tables operatorID .operator = some operator)
      (hfresh : s.store.table (.override id) = none)
      (hcreated : activateEmergencyOverride sha256Hex s.tables operator agentID
        kind payload justification ttlSeconds openCount now = some o) :
      AuthStep sha256Hex may s
        { s with store := s.store.create (.override id) (.override o) }
  | edit (tables : ApprovalTables) (hmay : may.edit s) :
      AuthStep sha256Hex may s { s with tables := tables }

/-- Any number of steps. -/
def AuthRun (sha256Hex : Bytes → String) (may : Permitted) :
    AuthState → AuthState → Prop :=
  Relation.ReflTransGen (AuthStep sha256Hex may)

/-- Nothing has been requested yet. -/
structure AuthStart (s : AuthState) : Prop where
  blank : ∀ k, s.store.table k = none
  unrecorded : s.store.inserted = []
  idle : ∀ t, s.store.txns t = {}

end NodeLink.Server
