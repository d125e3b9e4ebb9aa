import NodeLink.Server.Inventory
import NodeLink.Server.Monitoring

/-!
# The checks the server evaluates

`evaluate_offline_checks` and `evaluate_patch_age_checks` in
`core/monitoring.py`, and the sweep of `core/tasks.py` that runs them for every
active agent in one transaction.
-/

namespace NodeLink.Server

open Lib

/-! ## Numbers and states -/

/-- `total_seconds()` of a duration that is not negative, and 0 of one that
is. -/
def elapsedSeconds (micros : Int) : Double :=
  Double.ofNonneg (max micros 0 / 1000000)

/-- `total_seconds() / 86_400`, likewise. -/
def elapsedDays (micros : Int) : Double :=
  Double.ofNonneg ((elapsedSeconds micros).value / 86400)

/-- `breached` in `classify_numeric`. -/
def breached (value : Double) (op : ThresholdOp) : Option Double → Bool
  | none => false
  | some bound =>
    match op with
    | .gt => Double.lt bound value
    | .gte => Double.le bound value
    | .lt => Double.lt value bound
    | .lte => Double.le value bound

/-- `classify_numeric` -/
def classifyNumeric (value : Double) (threshold : Threshold) :
    CheckResultStatus :=
  if breached value threshold.op threshold.critical then .critical
  else if breached value threshold.op threshold.warning then .warning
  else .ok

/-- `CheckResultStatus.value` -/
def CheckResultStatus.text : CheckResultStatus → String
  | .ok => "ok"
  | .warning => "warning"
  | .critical => "critical"
  | .unknown => "unknown"

/-- `severity` in `_apply_hysteresis`. -/
def CheckResultStatus.severity : CheckResultStatus → Int
  | .unknown => -1
  | .ok => 0
  | .warning => 1
  | .critical => 2

/-- What the evaluators take from their surroundings besides: the text of an
instant, and what `int` reads from a text. -/
structure EvaluatorEnv extends MonitoringEnv where
  isoformat : Int → String
  intText : String → Option Int

/-- `int(value or 0)`; nothing where it raises. -/
def EvaluatorEnv.count (env : EvaluatorEnv) : PyValue → Option Int
  | .null => some 0
  | .bool b => some (if b then 1 else 0)
  | .num (.int i) => some i
  | .num (.float x) =>
    if x.isFinite then some (if x.msb then ⌈x.value⌉ else ⌊x.value⌋) else none
  | .str s => if s = "" then some 0 else env.intText s
  | .arr vs => if vs.isEmpty then some 0 else none
  | .obj ms => if ms.isEmpty then some 0 else none

/-- The transition a stored detail carries: its pending status and its count.
Nothing where the detail is not of the shape that is read. -/
def EvaluatorEnv.priorHysteresis (env : EvaluatorEnv) (detail : ResultDetail) :
    Option (PyValue × Int) :=
  match PyValue.get (detail.getD []) "hysteresis" with
  | none => some (.null, 0)
  | some (.obj prior) =>
    ((env.count ((PyValue.get prior "pending_count").getD (.num (.int 0))))).map
      fun n => ((PyValue.get prior "pending_status").getD .null, n)
  | some _ => none

/-- A stable status, with the transition that is pending. -/
structure Stable where
  status : CheckResultStatus
  pendingStatus : Option CheckResultStatus := none
  pendingCount : Int := 0
  deriving DecidableEq, Repr

/-- The samples in a row a change from `current` to `raw` takes. -/
def requiredSamples (hysteresis : Hysteresis)
    (current raw : CheckResultStatus) : Int :=
  if current = .unknown ∧ raw = .ok then 1
  else if raw.severity > current.severity then hysteresis.raiseSamples
  else hysteresis.clearSamples

/-- `_apply_hysteresis`; `previous` is a row with its detail. -/
def applyHysteresis (env : EvaluatorEnv) (raw : CheckResultStatus)
    (definition : CheckDefinition)
    (previous : Option (CheckResult × ResultDetail)) : Option Stable :=
  if raw = .unknown then some { status := raw }
  else
    match previous with
    | none =>
      if (raw = .warning ∨ raw = .critical) ∧
          definition.hysteresis.raiseSamples ≠ 1 then
        some { status := .unknown, pendingStatus := some raw, pendingCount := 1 }
      else some { status := raw }
    | some (row, detail) =>
      if raw = row.status then some { status := raw }
      else
        (env.priorHysteresis detail).map fun prior =>
          if (if PyValue.eq prior.1 (.str raw.text) then prior.2 + 1 else 1) ≥
              requiredSamples definition.hysteresis row.status raw then
            { status := raw }
          else
            { status := row.status
              pendingStatus := some raw
              pendingCount :=
                if PyValue.eq prior.1 (.str raw.text) then prior.2 + 1 else 1 }

def Stable.detail (stable : Stable) : PyValue :=
  .obj
    [("pending_status",
        stable.pendingStatus.elim .null fun s => .str s.text),
      ("pending_count", .num (.int stable.pendingCount))]

/-! ## What is due -/

/-- The newest row of the check, unless it is of another revision. -/
def previousResult (tables : MonitoringTables) (agentID : String)
    (item : EffectiveCheck) : Option (CheckResult × ResultDetail) :=
  (((tables.db.results.filter fun r =>
      decide (r.agentID = agentID ∧ r.checkKey = item.definition.key)).argmax
    CheckResult.order).filter fun r =>
      decide (r.policyID = some item.sourcePolicyID ∧
        r.policyRevisionID = some item.sourceRevisionID)).map
    fun r => (r, tables.detail r.id)

def checkDue (previous : Option (CheckResult × ResultDetail))
    (definition : CheckDefinition) (now : Int) : Bool :=
  previous.all fun p =>
    decide ((definition.intervalSeconds : Int) * 1000000 ≤
      now - p.1.evaluatedAt)

/-- What a pass of an evaluator finds out about one check. -/
structure Evaluation where
  raw : CheckResultStatus
  value : Option Double
  reason : String
  /-- The members of the detail between the raw status and the hysteresis. -/
  evidence : List (String × PyValue) := []

/-- Both evaluators' rows: hysteresis, detail and `record_check_result`. An
exception, which ends the sweep, is `none`. -/
def recordEvaluation (env : EvaluatorEnv) (checkType : String)
    (alertOnUnknown : Bool) (agentID : String) (item : EffectiveCheck)
    (now : Int) (evaluation : Evaluation) (tables : MonitoringTables) :
    Option MonitoringTables :=
  match applyHysteresis env evaluation.raw item.definition
      (previousResult tables agentID item) with
  | none => none
  | some stable =>
    (tables.record env.toMonitoringEnv now
      { agentID
        policyID := some item.sourcePolicyID
        policyRevisionID := some item.sourceRevisionID
        checkKey := item.definition.key
        status := stable.status
        value := evaluation.value
        evaluatedAt := some now
        resultID := none
        alertOnUnknown }
      (some ([("check_type", .str checkType), ("reason", .str evaluation.reason),
          ("raw_status", .str evaluation.raw.text)] ++ evaluation.evidence ++
        [("hysteresis", stable.detail)]))).toOption

/-- One pass over an agent's checks of one type. -/
def evaluateChecks (env : EvaluatorEnv) (type : CheckType) (checkType : String)
    (alertOnUnknown : Bool) (agent : AgentPlace) (now : Int)
    (evaluate : EffectiveCheck → Evaluation) (tables : MonitoringTables) :
    Option MonitoringTables :=
  (tables.effective agent).foldlM (fun tables item =>
    if item.definition.type ≠ type then some tables
    else if ¬ checkDue (previousResult tables agent.id item) item.definition now
      then some tables
    else
      recordEvaluation env checkType alertOnUnknown agent.id item now
        (evaluate item) tables) tables

/-! ## Offline checks -/

/-- Both types of check have a threshold. -/
def classifyCheck (value : Double) (definition : CheckDefinition) :
    CheckResultStatus :=
  definition.threshold.elim .ok (classifyNumeric value)

def evaluateOffline (lastSeenAt : Option Int) (now : Int)
    (item : EffectiveCheck) : Evaluation :=
  match lastSeenAt with
  | none =>
    { raw := .unknown, value := none, reason := "agent_has_never_checked_in" }
  | some lastSeen =>
    { raw := classifyCheck (elapsedSeconds (now - lastSeen)) item.definition
      value := some (elapsedSeconds (now - lastSeen))
      reason :=
        if classifyCheck (elapsedSeconds (now - lastSeen)) item.definition = .ok
        then "heartbeat_within_threshold" else "heartbeat_overdue" }

/-- `evaluate_offline_checks` -/
def evaluateOfflineChecks (env : EvaluatorEnv) (agent : AgentPlace) (now : Int)
    (tables : MonitoringTables) : Option MonitoringTables :=
  evaluateChecks env .offline "offline" true agent now
    (evaluateOffline (tables.lastSeen agent.id) now) tables

/-! ## Patch age -/

/-- A row of `installed` that is a dictionary, with what `_inventory_datetime`
makes of its date. -/
structure InstalledUpdate where
  installedOn : Option Int
  kbID : PyValue := .null

/-- What is read of the payload of a `windows_updates` section. -/
structure UpdatesPayload where
  scannedAt : Option Int
  /-- The rows, where `installed` is a list. -/
  installed : Option (List InstalledUpdate)

/-- `INSTALL_TIMESTAMP_SKEW_TOLERANCE` -/
def installTimestampSkewTolerance : Int := 5 * 60 * 1000000

/-- `max(dated_rows)`: the first of the newest. -/
def newestInstall (rows : List InstalledUpdate) :
    Option (Int × InstalledUpdate) :=
  (rows.filterMap fun row => row.installedOn.map fun on => (on, row)).argmax
    (·.1)

def isoOrNone (env : EvaluatorEnv) (t : Option Int) : PyValue :=
  t.elim .null fun t => .str (env.isoformat t)

def patchAgeEvidence (env : EvaluatorEnv)
    (snapshot : Option (AgentInventorySnapshot UpdatesPayload))
    (newest : Option (Int × InstalledUpdate)) (installedCount : Nat) :
    List (String × PyValue) :=
  [("evidence_source", .str "windows_updates"),
    ("newest_installed_on", isoOrNone env (newest.map (·.1))),
    ("newest_kb_id", (newest.map (·.2.kbID)).getD .null),
    ("installed_count", .num (.int installedCount)),
    ("scanned_at", isoOrNone env (snapshot.bind (·.payload.scannedAt))),
    ("snapshot_received_at", isoOrNone env (snapshot.map (·.receivedAt)))]

def evaluatePatchAge (env : EvaluatorEnv)
    (snapshot : Option (AgentInventorySnapshot UpdatesPayload)) (now : Int)
    (item : EffectiveCheck) : Evaluation :=
  match snapshot with
  | none =>
    { raw := .unknown, value := none, reason := "no_update_inventory"
      evidence := patchAgeEvidence env none none 0 }
  | some stored =>
    if stored.status ≠ "ok" ∧ stored.status ≠ "partial" then
      { raw := .unknown, value := none, reason := "update_scan_unusable"
        evidence := patchAgeEvidence env snapshot none 0 }
    else if stored.payload.installed.getD [] = [] then
      { raw := .unknown, value := none, reason := "no_installed_updates"
        evidence := patchAgeEvidence env snapshot none 0 }
    else
      match newestInstall (stored.payload.installed.getD []) with
      | none =>
        { raw := .unknown, value := none, reason := "no_install_timestamps"
          evidence := patchAgeEvidence env snapshot none
            (stored.payload.installed.getD []).length }
      | some newest =>
        if newest.1 - now > installTimestampSkewTolerance then
          { raw := .unknown, value := none, reason := "install_timestamp_in_future"
            evidence := patchAgeEvidence env snapshot (some newest)
              (stored.payload.installed.getD []).length }
        else
          { raw := classifyCheck (elapsedDays (now - newest.1)) item.definition
            value := some (elapsedDays (now - newest.1))
            reason :=
              if classifyCheck (elapsedDays (now - newest.1)) item.definition =
                  .ok then "newest_install_within_threshold"
              else "newest_install_overdue"
            evidence := patchAgeEvidence env snapshot (some newest)
              (stored.payload.installed.getD []).length }

/-- `evaluate_patch_age_checks` -/
def evaluatePatchAgeChecks (env : EvaluatorEnv)
    (snapshots : List (AgentInventorySnapshot UpdatesPayload))
    (agent : AgentPlace) (now : Int) (tables : MonitoringTables) :
    Option MonitoringTables :=
  evaluateChecks env .patchAge "patch_age" false agent now
    (evaluatePatchAge env (latestSection snapshots agent.id "windows_updates")
      now) tables

/-! ## The sweep -/

/-- The two passes over one agent, each at its own instant. -/
def sweepAgent (env : EvaluatorEnv)
    (snapshots : List (AgentInventorySnapshot UpdatesPayload))
    (offlineAt patchAgeAt : String → Int) (tables : MonitoringTables)
    (agentID : String) : Option MonitoringTables :=
  match tables.agent agentID with
  | none => some tables
  | some agent =>
    (evaluateOfflineChecks env agent (offlineAt agentID) tables).bind
      (evaluatePatchAgeChecks env snapshots agent (patchAgeAt agentID))

/-- The monitoring half of `_sweep_once`, over the agents in the order of the
query; nothing where an exception rolls the sweep back. -/
def sweepOnce (env : EvaluatorEnv)
    (snapshots : List (AgentInventorySnapshot UpdatesPayload))
    (agents : List String) (offlineAt patchAgeAt : String → Int)
    (tables : MonitoringTables) : Option MonitoringTables :=
  (agents.filter tables.active).foldlM
    (sweepAgent env snapshots offlineAt patchAgeAt) tables

end NodeLink.Server
