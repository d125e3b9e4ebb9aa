import Mathlib.Data.Prod.Lex
import NodeLink.Server.Maintenance

/-!
# Alert state

`core/monitoring.py`: `apply_check_result_to_alert` and the four functions it
calls. The table of alerts holds one row for an endpoint, a policy and a check
key. A result is applied while that row is locked, so an application is one
step; `now` and the identifier a new row would get are its inputs. A value is
kept as the bits of its double. The notifications an event is enqueued to are
left out.
-/

namespace NodeLink.Server

inductive CheckResultStatus where
  | ok
  | warning
  | critical
  | unknown
  deriving DecidableEq, Repr

inductive AlertState where
  | open
  | acknowledged
  | resolved
  deriving DecidableEq, Repr

inductive AlertEventType where
  | stateImported
  | opened
  | reopened
  | acknowledged
  | assigned
  | commented
  | manualResolution
  | automaticRecovery
  | policyRevised
  | policyDeleted
  | policySuperseded
  deriving DecidableEq, Repr

structure CheckResult where
  id : String
  agentID : String
  policyID : Option String
  policyRevisionID : Option String
  checkKey : String
  status : CheckResultStatus
  value : Option (BitVec 64)
  evaluatedAt : Int
  deriving DecidableEq, Repr

def CheckResult.failing (result : CheckResult) : Bool :=
  decide (result.status ≠ .ok)

/-- `(evaluated_at, id)`, compared as Python compares tuples. -/
abbrev ResultOrder := Lex (Int × String)

def CheckResult.order (result : CheckResult) : ResultOrder :=
  toLex (result.evaluatedAt, result.id)

structure Alert where
  id : String
  agentID : String
  policyID : String
  policyRevisionID : String
  checkKey : String
  state : AlertState
  lastResultStatus : CheckResultStatus
  occurrenceCount : Nat := 0
  totalOccurrenceCount : Nat := 0
  generation : Nat := 0
  firstOpenedAt : Option Int := none
  openedAt : Option Int := none
  lastObservedAt : Option Int := none
  resolvedAt : Option Int := none
  lastEvaluatedAt : Option Int := none
  lastResultID : Option String := none
  lastValue : Option (BitVec 64) := none
  resolutionReason : Option String := none
  assignedToOperatorID : Option String := none
  assignedToEmail : Option String := none
  acknowledgedAt : Option Int := none
  acknowledgedBy : Option String := none
  version : Nat := 1
  suppressionWindowID : Option String := none
  suppressedUntil : Option Int := none
  createdAt : Int
  updatedAt : Int
  deriving DecidableEq, Repr

/-- The columns of `ux_alert_identity`. -/
structure AlertIdentity where
  agentID : String
  policyID : String
  checkKey : String
  deriving DecidableEq, Repr

def Alert.identity (alert : Alert) : AlertIdentity :=
  ⟨alert.agentID, alert.policyID, alert.checkKey⟩

structure AlertObservation where
  checkResultID : String
  alertID : String
  status : CheckResultStatus
  value : Option (BitVec 64)
  evaluatedAt : Int
  outOfOrder : Bool
  createdAt : Int
  deriving DecidableEq, Repr

structure AlertEvent where
  alertID : String
  generation : Nat
  eventType : AlertEventType
  fromState : AlertState
  toState : AlertState
  sourceResultID : Option String
  actor : String := "system"
  requestID : Option String := none
  createdAt : Int
  deriving DecidableEq, Repr

structure AlertDB where
  directory : Directory
  windows : List MaintenanceWindow
  alerts : List Alert
  observations : List AlertObservation
  events : List AlertEvent

/-! ## The rows of another policy -/

/-- Another policy's active alert for the same endpoint and check. -/
def Alert.supersededBy (result : CheckResult) (policyID : String)
    (alert : Alert) : Bool :=
  decide (alert.agentID = result.agentID ∧ alert.checkKey = result.checkKey
    ∧ alert.policyID ≠ policyID ∧ alert.state ≠ .resolved)

def Alert.supersede (result : CheckResult) (now : Int) (alert : Alert) :
    Alert :=
  { alert with
    state := .resolved
    resolvedAt := some result.evaluatedAt
    resolutionReason := some "policy_superseded"
    suppressionWindowID := none
    suppressedUntil := none
    version := alert.version + 1
    updatedAt := now }

def supersededEvent (result : CheckResult) (alert : Alert) : AlertEvent where
  alertID := alert.id
  generation := alert.generation
  eventType := .policySuperseded
  fromState := alert.state
  toState := .resolved
  sourceResultID := none
  createdAt := result.evaluatedAt

/-- `_resolve_superseded_alerts` -/
def resolveSupersededAlerts (now : Int) (result : CheckResult)
    (policyID : String) (db : AlertDB) : AlertDB :=
  { db with
    alerts := db.alerts.map fun alert =>
      if alert.supersededBy result policyID then alert.supersede result now
      else alert
    events := db.events ++ (db.alerts.filter
      (·.supersededBy result policyID)).map (supersededEvent result) }

/-! ## The row of the result -/

def alertShell (now : Int) (uuid : String) (result : CheckResult)
    (policyID revisionID : String) : Alert where
  id := uuid
  agentID := result.agentID
  policyID := policyID
  policyRevisionID := revisionID
  checkKey := result.checkKey
  state := .resolved
  lastResultStatus := result.status
  createdAt := now
  updatedAt := now

def AlertDB.alert (db : AlertDB) (identity : AlertIdentity) : Option Alert :=
  db.alerts.find? fun alert => decide (alert.identity = identity)

/-- Write back the row of an identity. -/
def AlertDB.setAlert (db : AlertDB) (row : Alert) : AlertDB :=
  { db with
    alerts := db.alerts.map fun alert =>
      if alert.identity = row.identity then row else alert }

/-- `_ensure_alert_shell`: an insert that does nothing on a conflict. -/
def ensureAlertShell (shell : Alert) (db : AlertDB) : AlertDB :=
  match db.alert shell.identity with
  | some _ => db
  | none => { db with alerts := db.alerts ++ [shell] }

/-- The result has been applied already. -/
def AlertDB.observed (db : AlertDB) (resultID : String) : Bool :=
  db.observations.any fun o => decide (o.checkResultID = resultID)

def observation (now : Int) (alert : Alert) (result : CheckResult)
    (outOfOrder : Bool) : AlertObservation where
  checkResultID := result.id
  alertID := alert.id
  status := result.status
  value := result.value
  evaluatedAt := result.evaluatedAt
  outOfOrder := outOfOrder
  createdAt := now

def AlertDB.observe (db : AlertDB) (o : AlertObservation) : AlertDB :=
  { db with observations := db.observations ++ [o] }

def AlertDB.append (db : AlertDB) (event : AlertEvent) : AlertDB :=
  { db with events := db.events ++ [event] }

/-- `prior_order`, once some result has been applied. -/
def Alert.priorOrder (alert : Alert) : Option ResultOrder :=
  alert.lastEvaluatedAt.map fun t => toLex (t, alert.lastResultID.getD "")

/-- The result is not later than the row's last one. -/
def Alert.behind (alert : Alert) (result : CheckResult) : Bool :=
  alert.priorOrder.any fun prior => decide (result.order ≤ prior)

/-- The counters an out-of-order result moves. -/
def Alert.countLate (alert : Alert) (result : CheckResult) : Alert :=
  if result.failing then
    { alert with
      totalOccurrenceCount := alert.totalOccurrenceCount + 1
      occurrenceCount :=
        if alert.state ≠ .resolved
            ∧ alert.openedAt.any (fun t => decide (t ≤ result.evaluatedAt))
        then alert.occurrenceCount + 1 else alert.occurrenceCount }
  else alert

def Alert.seen (alert : Alert) (now : Int) (result : CheckResult)
    (revisionID : String) : Alert :=
  { alert with
    policyRevisionID := revisionID
    lastResultStatus := result.status
    lastEvaluatedAt := some result.evaluatedAt
    lastResultID := some result.id
    lastValue := result.value
    updatedAt := now }

/-- The `not failing` branch. -/
def Alert.recover (alert : Alert) (result : CheckResult) : Alert :=
  if alert.state ≠ .resolved then
    { alert with
      suppressionWindowID := none
      suppressedUntil := none
      state := .resolved
      resolvedAt := some result.evaluatedAt
      resolutionReason := some "automatic_recovery"
      version := alert.version + 1 }
  else { alert with suppressionWindowID := none, suppressedUntil := none }

def recoveryEvents (alert : Alert) (result : CheckResult) : List AlertEvent :=
  if alert.state ≠ .resolved then
    [{ alertID := alert.id, generation := alert.generation
       eventType := .automaticRecovery, fromState := alert.state
       toState := .resolved, sourceResultID := some result.id
       createdAt := result.evaluatedAt }]
  else []

/-- `max(windows, key=ends_at)`: the first of the latest. -/
def latestWindow (windows : List MaintenanceWindow) :
    Option MaintenanceWindow := windows.argmax (·.endsAt)

def Alert.suppress (alert : Alert) (windows : List MaintenanceWindow) :
    Alert :=
  { alert with
    suppressionWindowID := (latestWindow windows).map (·.id)
    suppressedUntil := (latestWindow windows).map (·.endsAt) }

/-- The `failing` branch, once the suppression is written. -/
def Alert.raise (alert : Alert) (result : CheckResult) : Alert :=
  if alert.state = .resolved then
    { alert with
      lastObservedAt := some result.evaluatedAt
      totalOccurrenceCount := alert.totalOccurrenceCount + 1
      state := .open
      generation := alert.generation + 1
      occurrenceCount := 1
      openedAt := some result.evaluatedAt
      resolvedAt := none
      resolutionReason := none
      firstOpenedAt := alert.firstOpenedAt.orElse fun _ =>
        some result.evaluatedAt
      acknowledgedAt := none
      acknowledgedBy := none
      version := alert.version + 1 }
  else
    { alert with
      lastObservedAt := some result.evaluatedAt
      totalOccurrenceCount := alert.totalOccurrenceCount + 1
      occurrenceCount := alert.occurrenceCount + 1 }

def openingEvents (alert : Alert) (result : CheckResult) : List AlertEvent :=
  if alert.state = .resolved then
    [{ alertID := alert.id, generation := alert.generation + 1
       eventType := if alert.generation = 0 then .opened else .reopened
       fromState := alert.state, toState := .open
       sourceResultID := some result.id, createdAt := result.evaluatedAt }]
  else []

/-! ## Applying one result -/

inductive ApplyError where
  | missingAgent
  deriving DecidableEq, Repr

/-- What is done with the locked row, once the result is known to be new. -/
def applyToAlert (zones : ZoneTable) (now : Int) (result : CheckResult)
    (revisionID : String) (alert : Alert) (db : AlertDB) :
    Except ApplyError AlertDB :=
  if alert.behind result then
    .ok ((db.observe (observation now alert result true)).setAlert
      (alert.countLate result))
  else if result.failing then
    match db.directory.agentSite result.agentID with
    | none => .error .missingAgent
    | some siteID =>
      .ok { (db.observe (observation now alert result false)).setAlert
          (((alert.seen now result revisionID).suppress
            (activeMaintenanceWindows zones db.directory db.windows
              ⟨result.agentID, siteID⟩ result.evaluatedAt)).raise result) with
        events := db.events ++ openingEvents alert result }
  else
    .ok { (db.observe (observation now alert result false)).setAlert
        ((alert.seen now result revisionID).recover result) with
      events := db.events ++ recoveryEvents alert result }

/-- The row is created for a failing result only. -/
def prepareAlert (now : Int) (uuid : String) (result : CheckResult)
    (policyID revisionID : String) (db : AlertDB) : AlertDB :=
  if result.failing then
    ensureAlertShell (alertShell now uuid result policyID revisionID)
      (resolveSupersededAlerts now result policyID db)
  else resolveSupersededAlerts now result policyID db

/-- `apply_check_result_to_alert` -/
def applyCheckResultToAlert (zones : ZoneTable) (now : Int) (uuid : String)
    (result : CheckResult) (db : AlertDB) : Except ApplyError AlertDB :=
  match result.policyID, result.policyRevisionID with
  | some policyID, some revisionID =>
    match (prepareAlert now uuid result policyID revisionID db).alert
        ⟨result.agentID, policyID, result.checkKey⟩ with
    | none => .ok (prepareAlert now uuid result policyID revisionID db)
    | some alert =>
      if (prepareAlert now uuid result policyID revisionID db).observed
          result.id then
        .ok (prepareAlert now uuid result policyID revisionID db)
      else
        applyToAlert zones now result revisionID alert
          (prepareAlert now uuid result policyID revisionID db)
  | _, _ => .ok db

/-- A result that reaches the server, when, and the identifier a row created
for it would get. -/
structure ResultDelivery where
  result : CheckResult
  now : Int
  uuid : String
  deriving DecidableEq, Repr

/-- Apply deliveries one after the other. -/
def applyDeliveries (zones : ZoneTable) (ds : List ResultDelivery)
    (db : AlertDB) : Except ApplyError AlertDB :=
  ds.foldlM (fun db d =>
    applyCheckResultToAlert zones d.now d.uuid d.result db) db

end NodeLink.Server
