import NodeLink.Lib.PyValue
import NodeLink.Server.AlertActions

/-!
# Monitoring policies, and the results agents submit

`resolve_effective_policy` in `core/monitoring.py`, the checks a heartbeat
assigns, and `submit_monitoring_results` in `api/agents.py`. A submission is
one transaction: a refusal leaves the tables as they were.
-/

namespace NodeLink.Server

open Lib

/-! ## Policies -/

inductive CheckType where
  | offline
  | cpu
  | memory
  | disk
  | service
  | rebootPending
  | uptime
  | patchAge
  deriving DecidableEq, Repr

inductive ThresholdOp where
  | gt
  | gte
  | lt
  | lte
  deriving DecidableEq, Repr

structure Threshold where
  op : ThresholdOp
  warning : Option Double
  critical : Option Double
  deriving DecidableEq, Repr

structure Hysteresis where
  raiseSamples : Nat := 1
  clearSamples : Nat := 1
  deriving DecidableEq, Repr

/-- `CheckDefinition`, without the parameters only an agent reads, and with
what its validators promise of the rest. -/
structure CheckDefinition where
  key : String
  type : CheckType
  enabled : Bool := true
  intervalSeconds : Nat
  threshold : Option Threshold
  hysteresis : Hysteresis := {}
  key_ok : checkKeyPattern key = true
  interval_ok : 30 ≤ intervalSeconds ∧ intervalSeconds ≤ 86400
  threshold_ok : match type with
    | .rebootPending => threshold = none
    | .service => True
    | _ => threshold ≠ none
  patchAge_ok : type = .patchAge → 3600 ≤ intervalSeconds

structure MonitoringPolicy where
  id : String
  name : String
  scope : MonitoringScope
  scopeID : Option String
  enabled : Bool
  createdAt : Int
  deriving DecidableEq, Repr

structure MonitoringPolicyRevision where
  id : String
  policyID : String
  version : Nat
  checks : List CheckDefinition

/-- One resolved check, and the policy it won from. -/
structure EffectiveCheck where
  definition : CheckDefinition
  sourceScope : MonitoringScope
  sourcePolicyID : String
  sourceRevisionID : String
  sourcePolicyName : String

structure PolicyTables where
  policies : List MonitoringPolicy := []
  revisions : List MonitoringPolicyRevision := []

/-- `_SCOPE_PRECEDENCE` -/
def monitoringScopePrecedence : MonitoringScope → Nat
  | .global => 0
  | .client => 1
  | .site => 2
  | .agent => 3

/-- The policy's scope takes in the agent. -/
def MonitoringPolicy.covers (policy : MonitoringPolicy) (dir : Directory)
    (agent : AgentPlace) : Bool :=
  match policy.scope with
  | .global => true
  | .client =>
    decide (dir.siteClient agent.siteID ≠ none)
      && decide (policy.scopeID = dir.siteClient agent.siteID)
  | .site => decide (policy.scopeID = some agent.siteID)
  | .agent => decide (policy.scopeID = some agent.id)

/-- `_applicable_policies` -/
def applicableMonitoringPolicies (tables : PolicyTables) (dir : Directory)
    (agent : AgentPlace) : List MonitoringPolicy :=
  (tables.policies.filter fun p => p.enabled && p.covers dir agent).insertionSort
    fun p q => toLex (p.createdAt, p.id) ≤ toLex (q.createdAt, q.id)

/-- `current_revision` -/
def currentMonitoringRevision (tables : PolicyTables) (policyID : String) :
    Option MonitoringPolicyRevision :=
  (tables.revisions.filter fun r => decide (r.policyID = policyID)).argmax
    (·.version)

/-- One definition of one policy, merged into the dictionary by key. -/
def mergeDefinition (policy : MonitoringPolicy)
    (revision : MonitoringPolicyRevision)
    (effective : List (String × EffectiveCheck))
    (definition : CheckDefinition) : List (String × EffectiveCheck) :=
  if definition.enabled then
    effective.filter (fun e => decide (e.1 ≠ definition.key)) ++
      [(definition.key,
        { definition
          sourceScope := policy.scope
          sourcePolicyID := policy.id
          sourceRevisionID := revision.id
          sourcePolicyName := policy.name })]
  else effective.filter fun e => decide (e.1 ≠ definition.key)

def mergePolicy (tables : PolicyTables)
    (effective : List (String × EffectiveCheck)) (policy : MonitoringPolicy) :
    List (String × EffectiveCheck) :=
  match currentMonitoringRevision tables policy.id with
  | none => effective
  | some revision =>
    revision.checks.foldl (mergeDefinition policy revision) effective

/-- `resolve_effective_policy` -/
def resolveEffectivePolicy (tables : PolicyTables) (dir : Directory)
    (agent : AgentPlace) : List EffectiveCheck :=
  ((((applicableMonitoringPolicies tables dir agent).insertionSort fun p q =>
      toLex (monitoringScopePrecedence p.scope, toLex (p.createdAt, p.id)) ≤
        toLex (monitoringScopePrecedence q.scope, toLex (q.createdAt, q.id))).foldl
    (mergePolicy tables) []).insertionSort fun a b => a.1 ≤ b.1).map (·.2)

/-! ## The tables -/

/-- `uuid.uuid4()`, which is taken not to repeat an id that is in use. -/
structure UuidSource where
  draw : List String → String
  fresh : ∀ used, draw used ∉ used

/-- A detail of a check result, if it is there: the members of a dictionary. -/
abbrev ResultDetail := Option (List (String × PyValue))

/-- The tables monitoring reads and writes. `details` holds the column of that
name of the rows of check results, `active` the agents whose trust state is
active, and `lastSeen` what their last check-in wrote. -/
structure MonitoringTables where
  rules : PolicyTables := {}
  db : MonitoringDB
  details : List (String × ResultDetail) := []
  active : String → Bool
  lastSeen : String → Option Int

/-- What the server takes from its surroundings: the time zones, the ids it
draws, and which details `json.dumps` writes in at most 16 KiB. -/
structure MonitoringEnv where
  zones : ZoneTable
  uuids : UuidSource
  detailFits : List (String × PyValue) → Bool

/-- The agent's checks. -/
def MonitoringTables.effective (tables : MonitoringTables)
    (agent : AgentPlace) : List EffectiveCheck :=
  resolveEffectivePolicy tables.rules tables.db.alertDB.directory agent

/-- The agent, which `get_current_agent` has found. -/
def MonitoringTables.agent (tables : MonitoringTables) (agentID : String) :
    Option AgentPlace :=
  (tables.db.alertDB.directory.agentSite agentID).map fun siteID =>
    ⟨agentID, siteID⟩

def MonitoringTables.result (tables : MonitoringTables) (id : String) :
    Option CheckResult :=
  tables.db.results.find? fun r => decide (r.id = id)

def MonitoringTables.detail (tables : MonitoringTables) (id : String) :
    ResultDetail :=
  ((tables.details.find? fun d => decide (d.1 = id)).map (·.2)).getD none

/-- `record_check_result` on the tables. -/
def MonitoringTables.record (env : MonitoringEnv) (now : Int)
    (request : RecordRequest) (detail : ResultDetail)
    (tables : MonitoringTables) : Except RecordError MonitoringTables :=
  match recordCheckResult env.zones now
      (env.uuids.draw (tables.db.results.map (·.id)))
      (env.uuids.draw (tables.db.alertDB.alerts.map (·.id)))
      { request with detailFits := detail.all env.detailFits } tables.db with
  | .error e => .error e
  | .ok db =>
    .ok { tables with
      db
      details := tables.details ++ [((request.row now
        (env.uuids.draw (tables.db.results.map (·.id)))).id, detail)] }

/-! ## What a heartbeat assigns -/

structure AgentCheckAssignment where
  definition : CheckDefinition
  policyID : String
  policyRevisionID : String

/-- `monitoring_checks` of the answer to a heartbeat. -/
def monitoringChecks (tables : MonitoringTables) (agent : AgentPlace) :
    List AgentCheckAssignment :=
  ((tables.effective agent).filter fun item =>
    decide (item.definition.type ≠ .offline)).map fun item =>
      ⟨item.definition, item.sourcePolicyID, item.sourceRevisionID⟩

/-! ## Submissions -/

/-- An element of the body, once it is parsed. -/
structure AgentCheckResultIn where
  id : String
  policyID : String
  policyRevisionID : String
  checkKey : String
  status : CheckResultStatus
  value : Option Double
  detail : ResultDetail
  evaluatedAt : Int

/-- `^[0-9a-f]{32}$` -/
def resultIDPattern (id : String) : Bool :=
  decide (id.length = 32) && id.toList.all fun c =>
    (decide ('0' ≤ c) && decide (c ≤ '9')) ||
      (decide ('a' ≤ c) && decide (c ≤ 'f'))

/-- The validators of `AgentCheckResultIn`. -/
def AgentCheckResultIn.valid (env : MonitoringEnv)
    (result : AgentCheckResultIn) : Bool :=
  resultIDPattern result.id &&
    decide (1 ≤ result.policyID.length ∧ result.policyID.length ≤ 36) &&
    decide (1 ≤ result.policyRevisionID.length ∧
      result.policyRevisionID.length ≤ 36) &&
    checkKeyPattern result.checkKey && result.value.all Double.isFinite &&
    result.detail.all env.detailFits

/-- The validators of `AgentCheckResultBatchIn`. -/
def batchValid (env : MonitoringEnv) (body : List AgentCheckResultIn) : Bool :=
  decide (1 ≤ body.length ∧ body.length ≤ 100) &&
    body.all (·.valid env) && decide ((body.map (·.id)).Nodup)

inductive SubmitError where
  | unauthenticated
  | invalidBody
  | agentNotActive
  | policySuperseded
  | offlineCheckIsServerOwned
  | resultFromFuture
  | resultStale
  | valueRequired
  | valueOutOfRange
  | resultIDConflict
  | internal
  deriving DecidableEq, Repr

/-- `max_age_seconds`, in microseconds. -/
def maxResultAge (definition : CheckDefinition) : Int :=
  max (definition.intervalSeconds * 3) 300 * 1000000

def futureTolerance : Int := 5 * 60 * 1000000

def numericTypes : List CheckType := [.cpu, .memory, .disk, .uptime]

def percentTypes : List CheckType := [.cpu, .memory, .disk]

def zeroDouble : Double := 0x0000000000000000#64

def hundredDouble : Double := 0x4059000000000000#64

/-- The assignment an element is answered for. -/
def assignmentOf (effective : List EffectiveCheck)
    (result : AgentCheckResultIn) : Option EffectiveCheck :=
  (effective.find? fun item => decide (item.definition.key = result.checkKey)).filter
    fun item => decide (item.sourcePolicyID = result.policyID) &&
      decide (item.sourceRevisionID = result.policyRevisionID)

/-- What is checked of an element before its id is looked up. -/
def checkElement (effective : List EffectiveCheck) (now : Int)
    (result : AgentCheckResultIn) : Except SubmitError Unit :=
  match assignmentOf effective result with
  | none => .error .policySuperseded
  | some item =>
    if item.definition.type = .offline then .error .offlineCheckIsServerOwned
    else if result.evaluatedAt > now + futureTolerance then
      .error .resultFromFuture
    else if result.evaluatedAt < now - maxResultAge item.definition then
      .error .resultStale
    else if item.definition.type ∈ numericTypes ∧ result.status ≠ .unknown ∧
        result.value = none then .error .valueRequired
    else if item.definition.type ∈ percentTypes ∧
        result.value.any (fun v => !(Double.le zeroDouble v &&
          Double.le v hundredDouble)) then .error .valueOutOfRange
    else .ok ()

def sameValue : Option Double → Option Double → Bool
  | none, none => true
  | some x, some y => x.same y
  | _, _ => false

def sameDetail : ResultDetail → ResultDetail → Bool
  | none, none => true
  | some d, some e => PyValue.eq (.obj d) (.obj e)
  | _, _ => false

/-- The stored row is the one an element describes. -/
def samePayload (agentID : String) (existing : CheckResult)
    (detail : ResultDetail) (result : AgentCheckResultIn) : Bool :=
  decide (existing.agentID = agentID) &&
    decide (existing.checkKey = result.checkKey) &&
    decide (existing.policyID = some result.policyID) &&
    decide (existing.policyRevisionID = some result.policyRevisionID) &&
    decide (existing.status = result.status) &&
    sameValue existing.value result.value && sameDetail detail result.detail &&
    decide (existing.evaluatedAt = result.evaluatedAt)

/-- What `record_check_result` is called with. -/
def AgentCheckResultIn.request (agentID : String)
    (result : AgentCheckResultIn) : RecordRequest where
  agentID
  policyID := some result.policyID
  policyRevisionID := some result.policyRevisionID
  checkKey := result.checkKey
  status := result.status
  value := result.value
  evaluatedAt := some result.evaluatedAt
  resultID := some result.id

/-- The tables and the counts while a batch is worked through. -/
structure SubmitState where
  tables : MonitoringTables
  accepted : Nat := 0
  duplicates : Nat := 0

/-- One element of a batch. An exception other than the refusals answers 500;
no other request touches the rows in between, so the insert cannot lose a
race. -/
def submitElement (env : MonitoringEnv) (agentID : String)
    (effective : List EffectiveCheck) (now : Int) (state : SubmitState)
    (result : AgentCheckResultIn) : Except SubmitError SubmitState :=
  match checkElement effective now result with
  | .error e => .error e
  | .ok () =>
    match state.tables.result result.id with
    | some existing =>
      if samePayload agentID existing (state.tables.detail result.id) result then
        .ok { state with duplicates := state.duplicates + 1 }
      else .error .resultIDConflict
    | none =>
      match state.tables.record env now (result.request agentID)
          result.detail with
      | .error _ => .error .internal
      | .ok tables => .ok { state with tables, accepted := state.accepted + 1 }

/-- `submit_monitoring_results` -/
def submitMonitoringResults (env : MonitoringEnv) (agentID : String)
    (body : List AgentCheckResultIn) (now : Int) (tables : MonitoringTables) :
    Except SubmitError SubmitState :=
  match tables.agent agentID with
  | none => .error .unauthenticated
  | some agent =>
    if ¬ batchValid env body then .error .invalidBody
    else if ¬ tables.active agentID then .error .agentNotActive
    else
      body.foldlM (submitElement env agentID (tables.effective agent) now)
        { tables }

end NodeLink.Server
