import NodeLink.Server.Alerts

/-!
# Who else writes an alert

The table of check results with `record_check_result`, the policy changes that
resolve alerts (`resolve_policy_alerts` in `core/monitoring.py`), and what an
operator does to an alert (`api/management.py`). Each is a transaction that
holds the rows it changes. Comments and the audit entries are left out.
-/

namespace NodeLink.Server

/-! ## Policy changes -/

/-- The reasons a policy change resolves alerts for. -/
inductive PolicyChange where
  | revised
  | deleted
  deriving DecidableEq, Repr

def PolicyChange.reason : PolicyChange → String
  | .revised => "policy_revised"
  | .deleted => "policy_deleted"

def PolicyChange.eventType : PolicyChange → AlertEventType
  | .revised => .policyRevised
  | .deleted => .policyDeleted

/-- An active alert of the policy whose check is not among the active ones; no
active check at all means every alert of the policy. -/
def Alert.invalidatedBy (policyID : String) (activeCheckKeys : List String)
    (alert : Alert) : Bool :=
  decide (alert.policyID = policyID ∧ alert.state ≠ .resolved ∧
    (activeCheckKeys = [] ∨ alert.checkKey ∉ activeCheckKeys))

def Alert.invalidate (change : PolicyChange) (now : Int) (alert : Alert) :
    Alert :=
  { alert with
    state := .resolved
    resolvedAt := some now
    resolutionReason := some change.reason
    suppressionWindowID := none
    suppressedUntil := none
    version := alert.version + 1
    updatedAt := now }

def policyEvent (change : PolicyChange) (now : Int) (alert : Alert) :
    AlertEvent where
  alertID := alert.id
  generation := alert.generation
  eventType := change.eventType
  fromState := alert.state
  toState := .resolved
  sourceResultID := none
  createdAt := now

/-- `resolve_policy_alerts` -/
def resolvePolicyAlerts (change : PolicyChange) (policyID : String)
    (activeCheckKeys : List String) (now : Int) (db : AlertDB) : AlertDB :=
  { db with
    alerts := db.alerts.map fun alert =>
      if alert.invalidatedBy policyID activeCheckKeys then
        alert.invalidate change now
      else alert
    events := db.events ++ (db.alerts.filter
      (·.invalidatedBy policyID activeCheckKeys)).map (policyEvent change now) }

/-- The keys `revise_monitoring_policy` keeps alerts for: those of the enabled
checks of an enabled policy. -/
def activeCheckKeys (enabled : Bool) (checks : List (String × Bool)) :
    List String :=
  if enabled then (checks.filter (·.2)).map (·.1) else []

/-! ## Operator actions -/

inductive AlertActionError where
  | notFound
  | versionConflict (currentVersion : Nat)
  | invalidState (state : AlertState)
  | assigneeUnavailable
  deriving DecidableEq, Repr

/-- What the four action endpoints take. `visible` is the answer of
`_assert_alert_visible`. -/
structure AlertAction where
  alertID : String
  requestID : String
  expectedVersion : Nat
  operatorEmail : String
  visible : Bool
  now : Int
  deriving DecidableEq, Repr

/-- `_lock_alert_action`: the row, and whether the request is a replay. -/
def lockAlertAction (action : AlertAction) (db : AlertDB) :
    Except AlertActionError (Alert × Bool) :=
  match db.alerts.find? fun alert => decide (alert.id = action.alertID) with
  | none => .error .notFound
  | some alert =>
    if db.events.any fun event => decide (event.alertID = action.alertID ∧
        event.requestID = some action.requestID) then .ok (alert, true)
    else if alert.version ≠ action.expectedVersion then
      .error (.versionConflict alert.version)
    else .ok (alert, false)

/-- `_operator_alert_event` -/
def operatorAlertEvent (eventType : AlertEventType) (action : AlertAction)
    (fromState toState : AlertState) (alert : Alert) : AlertEvent where
  alertID := alert.id
  generation := alert.generation
  eventType
  fromState
  toState
  sourceResultID := none
  actor := action.operatorEmail
  requestID := some action.requestID
  createdAt := action.now

/-- What the four endpoints share: lock, tenant gate, replay, the endpoint's
own refusal, the change to the row and its event. -/
def actOnAlert (eventType : AlertEventType)
    (refusal : Alert → Option AlertActionError) (edit : Alert → Alert)
    (action : AlertAction) (db : AlertDB) : Except AlertActionError AlertDB :=
  match lockAlertAction action db with
  | .error e => .error e
  | .ok (alert, replay) =>
    if ¬ action.visible then .error .notFound
    else if replay then .ok db
    else
      match refusal alert with
      | some e => .error e
      | none =>
        .ok ((db.setAlert (edit alert)).append
          (operatorAlertEvent eventType action alert.state (edit alert).state
            alert))

def Alert.touched (action : AlertAction) (alert : Alert) : Alert :=
  { alert with version := alert.version + 1, updatedAt := action.now }

/-- `acknowledge_monitoring_alert` -/
def acknowledgeMonitoringAlert (action : AlertAction) (db : AlertDB) :
    Except AlertActionError AlertDB :=
  actOnAlert .acknowledged
    (fun alert =>
      if alert.state ≠ .open then some (.invalidState alert.state) else none)
    (fun alert => { alert.touched action with
      state := .acknowledged
      acknowledgedAt := some action.now
      acknowledgedBy := some action.operatorEmail })
    action db

/-- Whom an alert is assigned to: nobody, or an operator as the lookup finds
them, with the flag that disables them. -/
inductive Assignment where
  | nobody
  | operator (found : Option (String × String × Bool))
  deriving DecidableEq, Repr

def Assignment.assignee : Assignment → Option (String × String)
  | .operator (some (id, email, _)) => some (id, email)
  | _ => none

def Assignment.refusal : Assignment → Option AlertActionError
  | .nobody => none
  | .operator none => some .assigneeUnavailable
  | .operator (some (_, _, disabled)) =>
    if disabled then some .assigneeUnavailable else none

/-- `assign_monitoring_alert` -/
def assignMonitoringAlert (assignment : Assignment) (action : AlertAction)
    (db : AlertDB) : Except AlertActionError AlertDB :=
  actOnAlert .assigned (fun _ => assignment.refusal)
    (fun alert => { alert.touched action with
      assignedToOperatorID := assignment.assignee.map (·.1)
      assignedToEmail := assignment.assignee.map (·.2) })
    action db

/-- `comment_on_monitoring_alert` -/
def commentOnMonitoringAlert (action : AlertAction) (db : AlertDB) :
    Except AlertActionError AlertDB :=
  actOnAlert .commented (fun _ => none) (fun alert => alert.touched action)
    action db

/-- `resolve_monitoring_alert` -/
def resolveMonitoringAlert (action : AlertAction) (db : AlertDB) :
    Except AlertActionError AlertDB :=
  actOnAlert .manualResolution
    (fun alert =>
      if alert.state = .resolved then some (.invalidState alert.state) else none)
    (fun alert => { alert.touched action with
      state := .resolved
      resolvedAt := some action.now
      resolutionReason := some "manual_resolution"
      suppressionWindowID := none
      suppressedUntil := none })
    action db

/-! ## Check results -/

/-- `_CHECK_KEY_PATTERN` -/
def checkKeyPattern (key : String) : Bool :=
  let plain (c : Char) : Bool :=
    (decide ('a' ≤ c) && decide (c ≤ 'z')) || (decide ('0' ≤ c) && decide (c ≤ '9'))
  match key.toList with
  | [] => false
  | first :: rest =>
    plain first && decide (rest.length ≤ 63) &&
      rest.all fun c => plain c || c == '_' || c == '-'

/-- What `record_check_result` is called with. Of the detail, which no alert
depends on, only whether it is an object that fits is kept. -/
structure RecordRequest where
  agentID : String
  policyID : Option String
  policyRevisionID : Option String
  checkKey : String
  status : CheckResultStatus
  value : Option (BitVec 64)
  detailFits : Bool := true
  evaluatedAt : Option Int
  resultID : Option String
  alertOnUnknown : Bool := true
  deriving DecidableEq, Repr

inductive RecordError where
  | checkKey
  | detail
  | integrity
  | missingAgent
  deriving DecidableEq, Repr

/-- The alerts with the table of check results. -/
structure MonitoringDB where
  alertDB : AlertDB
  results : List CheckResult

/-- A new row of check results; `uuid` is the id it gets when none is given. -/
def RecordRequest.row (request : RecordRequest) (now : Int) (uuid : String) :
    CheckResult where
  id := request.resultID.getD uuid
  agentID := request.agentID
  policyID := request.policyID
  policyRevisionID := request.policyRevisionID
  checkKey := request.checkKey
  status := request.status
  value := request.value
  evaluatedAt := request.evaluatedAt.getD now

/-- The insert of an alert would repeat the id of another one. -/
def AlertDB.clashes (db : AlertDB) (uuid : String) (result : CheckResult)
    (identity : AlertIdentity) : Bool :=
  result.failing && (db.alert identity).isNone &&
    db.alerts.any fun alert => decide (alert.id = uuid)

/-- The alert a result is about, when it has the provenance to be applied. -/
def CheckResult.target (result : CheckResult) : Option AlertIdentity :=
  match result.policyID, result.policyRevisionID with
  | some policyID, some _ => some ⟨result.agentID, policyID, result.checkKey⟩
  | _, _ => none

/-- `apply_check_result_to_alert` as a database runs it: a repeated key fails
the transaction. -/
def applyResult (zones : ZoneTable) (now : Int) (uuid : String)
    (result : CheckResult) (db : AlertDB) : Except RecordError AlertDB :=
  if result.target.any (db.clashes uuid result) then .error .integrity
  else
    match applyCheckResultToAlert zones now uuid result db with
    | .error .missingAgent => .error .missingAgent
    | .ok db => .ok db

/-- `record_check_result` -/
def recordCheckResult (zones : ZoneTable) (now : Int) (resultUUID uuid : String)
    (request : RecordRequest) (db : MonitoringDB) :
    Except RecordError MonitoringDB :=
  if ¬ checkKeyPattern request.checkKey then .error .checkKey
  else if ¬ request.detailFits then .error .detail
  else if db.results.any fun r =>
      decide (r.id = (request.row now resultUUID).id) then .error .integrity
  else if request.alertOnUnknown ∨ request.status ≠ .unknown then
    match applyResult zones now uuid (request.row now resultUUID) db.alertDB with
    | .error e => .error e
    | .ok alertDB =>
      .ok ⟨alertDB, db.results ++ [request.row now resultUUID]⟩
  else .ok ⟨db.alertDB, db.results ++ [request.row now resultUUID]⟩

end NodeLink.Server
