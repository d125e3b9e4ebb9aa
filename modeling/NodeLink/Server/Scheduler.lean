import NodeLink.Server.Approvals
import NodeLink.Server.Cron
import NodeLink.Server.PatchPolicies

/-!
# Recurring tasks

`dispatch_scheduled_tasks_once` of `core/scheduler.py`, `scheduled_task_dispatcher`
of `core/tasks.py`, and the endpoints that store a task. A pass works in one
session on every task that is due, and what it wrote is kept only when it
commits.

The key, its signature, the texts of times and the identifiers drawn are
parameters. What a pass raises leaves the tables as they were.
-/

namespace NodeLink.Server.Scheduler

open Lib PatchPolicies

inductive ScheduleTargetType where
  | agent
  | site
  deriving DecidableEq, Repr

def ScheduleTargetType.value : ScheduleTargetType → String
  | .agent => "agent"
  | .site => "site"

inductive ScheduleConcurrencyPolicy where
  | skip
  | queue
  | allow
  deriving DecidableEq, Repr

inductive ScheduleMisfirePolicy where
  | runOnce
  | skip
  deriving DecidableEq, Repr

/-- A row of `scheduled_tasks`. -/
structure ScheduledTask where
  id : String
  name : String
  description : Option String
  enabled : Bool
  targetType : ScheduleTargetType
  targetID : String
  cronExpression : String
  timezone : String
  kind : CommandKind
  scriptVersionID : Option String
  payload : PyDict
  concurrencyPolicy : ScheduleConcurrencyPolicy
  misfirePolicy : ScheduleMisfirePolicy
  nextRunAt : Int
  lastRunAt : Option Int := none
  lastStatus : Option String := none
  createdByOperatorID : Option String
  createdByEmail : Option String
  createdAt : Int
  updatedAt : Int

/-- A row of `commands`, as a pass writes and reads it. -/
structure ScheduledCommand where
  id : String
  agentID : String
  kind : CommandKind
  payload : PyDict
  envelopeVersion : PyStr
  schemaVersion : Int
  issuedAt : Int
  nonce : String
  signingKeyID : Option PyStr
  status : CommandStatus
  createdAt : Int
  expiresAt : Int
  actorEmail : Option String
  actorOperatorID : Option String
  scriptVersionID : Option String
  signature : String

/-- The statuses in which a command still occupies its agent. -/
def stillActive : CommandStatus → Bool
  | .queued | .dispatched | .running | .resultPending => true
  | _ => false

/-- The arguments of an `audit.record`. -/
structure AuditNote where
  action : String
  agentID : Option String := none
  detail : List (String × AuditValue)

/-- The tables a task is judged by. -/
structure Fleet where
  agents : List ManagedAgent
  commands : List ScheduledCommand
  approvals : ApprovalTables
  patch : PatchTables

structure SchedulerTables where
  tasks : List ScheduledTask
  fleet : Fleet
  audit : List AuditNote
  tasks_unique : (tasks.map (·.id)).Nodup

/-- What lies outside the code. `drawn n` is the `n`-th pair of an identifier
and a nonce that is drawn. -/
structure SchedulerEnv where
  ops : PyTextOps
  foreignDigit : Char → Option Nat
  zones : ZoneDatabase
  padYear : Bool
  isoformat : Int → String
  activeKeyID : PyStr
  sign : Bytes → String
  drawn : Nat → String × String

inductive PassError where
  | nextRun (e : NextRunError)
  | patchGate (e : PyError)
  | expiryOverflow
  | envelope (e : EnvelopeFailure)
  deriving DecidableEq, Repr

/-! ## Rows -/

/-- The row is written back. -/
def SchedulerTables.write (tables : SchedulerTables) (row : ScheduledTask) :
    SchedulerTables :=
  { tables with
    tasks := tables.tasks.map fun task => if task.id = row.id then row else task
    tasks_unique := by
      have hids : (tables.tasks.map fun task =>
          if task.id = row.id then row else task).map (·.id) =
            tables.tasks.map (·.id) := by
        rw [List.map_map]
        refine List.map_congr_left fun task _ => ?_
        by_cases h : task.id = row.id <;> simp [h]
      rw [hids]
      exact tables.tasks_unique }

/-- The tasks that are enabled and due. -/
def dueTasks (tables : SchedulerTables) (now : Int) : List ScheduledTask :=
  tables.tasks.filter fun task => task.enabled && decide (task.nextRunAt ≤ now)

def isPowerOperation : CommandKind → Bool
  | .reboot | .shutdown | .cancelPowerAction => true
  | _ => false

/-- More than a day late, and such runs are to be skipped. -/
def skipsMisfire (task : ScheduledTask) (now : Int) : Bool :=
  decide (dayMicros < now - task.nextRunAt)
    && decide (task.misfirePolicy = .skip)

/-- The active agents a task is for. -/
def targetAgents (fleet : Fleet) (task : ScheduledTask) : List ManagedAgent :=
  fleet.agents.filter fun agent => decide (agent.trustState = .active) &&
    match task.targetType with
    | .agent => decide (agent.id = task.targetID)
    | .site => decide (agent.siteID = task.targetID)

/-- The command is a run of the same script, or of the same kind. -/
def sameWork (task : ScheduledTask) (command : ScheduledCommand) : Bool :=
  if task.scriptVersionID.getD "" = "" then decide (command.kind = task.kind)
  else decide (command.scriptVersionID = task.scriptVersionID)

/-- The concurrency policy has the agent passed over. -/
def busy (fleet : Fleet) (task : ScheduledTask) (agent : ManagedAgent) : Bool :=
  decide (task.concurrencyPolicy = .skip) &&
    fleet.commands.any fun command => decide (command.agentID = agent.id)
      && stillActive command.status && sameWork task command

/-- `resolve_policy` for the task's kind. -/
def approvalPolicy (fleet : Fleet) (task : ScheduledTask)
    (agent : ManagedAgent) : Option ApprovalPolicy :=
  resolvePolicy fleet.approvals agent.toAgentPlace task.kind

section Pass

variable (env : SchedulerEnv) (now : Int)

/-! ## One agent -/

def approvalNote (task : ScheduledTask) (agent : ManagedAgent)
    (policy : ApprovalPolicy) : AuditNote where
  action := "scheduled_task.approval_refused"
  agentID := some agent.id
  detail := [("scheduled_task_id", .str task.id),
    ("scheduled_task_name", .str task.name), ("kind", .str task.kind.value),
    ("agent_id", .str agent.id), ("policy_id", .str policy.id),
    ("required_approvals", .int policy.requiredApprovals)]

/-- The evidence of the patch gate. -/
def gateNotes (agent : ManagedAgent) (decision : InstallDecision) :
    List AuditNote :=
  ⟨"patch_install.gated", some agent.id, decision.gatedDetail⟩ ::
    decision.rebootDetail.toList.map fun detail =>
      ⟨"patch_install.reboot_authorized", some agent.id, detail⟩

/-- What the patch gate leaves of a task for an agent: what it notes, and the
payload that is sent, if any. Other kinds pass. -/
def patchGate (fleet : Fleet) (task : ScheduledTask) (agent : ManagedAgent) :
    Except PassError (List AuditNote × Option PyDict) :=
  if task.kind = .installUpdates then
    match PatchPolicies.evaluatePatchInstall env.ops env.padYear fleet.patch
        agent task.payload now with
    | .error e => .error (.patchGate e)
    | .ok none => .ok ([], some task.payload)
    | .ok (some decision) =>
      .ok (gateNotes agent decision,
        if decision.outcome = .allowed then some decision.payload else none)
  else .ok ([], some task.payload)

/-- The envelope version both sides know, or the older one. -/
def envelopeVersionFor (agent : ManagedAgent) : PyStr :=
  py ((selectCommandEnvelopeVersion agent.commandEnvelopeVersions).getD
    "command-v2")

/-- The arguments `sign_command` is called with, its key filled in. -/
def envelopeFor (task : ScheduledTask) (agent : ManagedAgent)
    (payload : PyDict) (drawn : String × String) : Envelope where
  envelopeVersion := envelopeVersionFor agent
  schemaVersion := .num (.int commandSchemaVersion)
  commandId := py drawn.1
  agentId := py agent.id
  kind := py task.kind.value
  payload := payload.payload
  issuedAt := timeText env.padYear now
  expiresAt := timeText env.padYear (now + dayMicros)
  nonce := py drawn.2
  signingKeyId :=
    if envelopeVersionFor agent = commandEnvelopeV3 then some env.activeKeyID
    else none

/-- The command that is queued, once it is signed. -/
def signedCommand (task : ScheduledTask) (agent : ManagedAgent)
    (payload : PyDict) (drawn : String × String) :
    Except PassError ScheduledCommand := do
  require (InRange (now + dayMicros)) .expiryOverflow
  let bytes ← (canonicalCommandBytes env.padYear
    (envelopeFor env now task agent payload drawn)).mapError .envelope
  pure {
    id := drawn.1
    agentID := agent.id
    kind := task.kind
    payload := payload
    envelopeVersion := envelopeVersionFor agent
    schemaVersion := commandSchemaVersion
    issuedAt := now
    nonce := drawn.2
    signingKeyID :=
      if envelopeVersionFor agent = commandEnvelopeV3 then
        some env.activeKeyID
      else none
    status := .queued
    createdAt := now
    expiresAt := now + dayMicros
    actorEmail := task.createdByEmail
    actorOperatorID := task.createdByOperatorID
    scriptVersionID := task.scriptVersionID
    signature := env.sign bytes }

def dispatchNote (task : ScheduledTask) (agent : ManagedAgent)
    (command : ScheduledCommand) : AuditNote where
  action := "scheduled_task.dispatched"
  agentID := some agent.id
  detail := [("scheduled_task_id", .str task.id),
    ("scheduled_task_name", .str task.name), ("command_id", .str command.id),
    ("kind", .str task.kind.value),
    ("target_type", .str task.targetType.value),
    ("target_id", .str task.targetID)]

/-- A session in the middle of a pass: the rows it sees, and the counters. -/
structure PassState where
  tables : SchedulerTables
  dispatched : Nat := 0
  skipped : Nat := 0

/-- What became of a task at one agent. -/
inductive AgentOutcome where
  | approvalRefused
  | busy
  | gated
  | dispatched
  deriving DecidableEq, Repr

def PassState.note (s : PassState) (notes : List AuditNote) : PassState :=
  { s with tables := { s.tables with audit := s.tables.audit ++ notes } }

def PassState.queue (s : PassState) (command : ScheduledCommand) : PassState :=
  { s with
    tables := { s.tables with
      fleet := { s.tables.fleet with
        commands := s.tables.fleet.commands ++ [command] } }
    dispatched := s.dispatched + 1 }

/-- The body of the loop over the target agents, with what became of the
agents before. -/
def agentTurn (task : ScheduledTask) (s : PassState × List AgentOutcome)
    (agent : ManagedAgent) : Except PassError (PassState × List AgentOutcome) :=
  match approvalPolicy s.1.tables.fleet task agent with
  | some policy =>
    .ok ({ s.1.note [approvalNote task agent policy] with
      skipped := s.1.skipped + 1 }, s.2 ++ [.approvalRefused])
  | none =>
    if busy s.1.tables.fleet task agent then .ok (s.1, s.2 ++ [.busy])
    else do
      let (notes, payload) ← patchGate env now s.1.tables.fleet task agent
      match payload with
      | none => pure (s.1.note notes, s.2 ++ [.gated])
      | some payload =>
        let command ← signedCommand env now task agent payload
          (env.drawn s.1.tables.fleet.commands.length)
        pure (((s.1.note notes).queue command).note
          [dispatchNote task agent command], s.2 ++ [.dispatched])

/-! ## One task -/

def misfireNote (task : ScheduledTask) : AuditNote where
  action := "scheduled_task.misfire_skipped"
  detail := [("scheduled_task_id", .str task.id),
    ("scheduled_task_name", .str task.name),
    ("scheduled_for", .str (env.isoformat task.nextRunAt)),
    ("detected_at", .str (env.isoformat now))]

/-- `compute_next_run` from the time of the pass. -/
def nextRunAfter (task : ScheduledTask) : Except PassError Int :=
  (computeNextRun env.foreignDigit env.zones task.cronExpression task.timezone
    now).mapError .nextRun

/-- The task's row after its turn. -/
def ranRow (task : ScheduledTask) (status : String) (next : Int)
    (updatedAt : Int) : ScheduledTask :=
  { task with
    lastRunAt := some now
    lastStatus := some status
    nextRunAt := next
    updatedAt := updatedAt }

def runStatus (outcomes : List AgentOutcome) : String :=
  if .dispatched ∈ outcomes then "dispatched"
  else if .approvalRefused ∈ outcomes then "approval_required"
  else "skipped"

/-- The body of the loop over the due tasks. -/
def taskTurn (s : PassState) (task : ScheduledTask) :
    Except PassError PassState :=
  if isPowerOperation task.kind then do
    let next ← nextRunAfter env now task
    pure { s with
      tables := s.tables.write
        (ranRow now task "power_operation_refused" next now)
      skipped := s.skipped + 1 }
  else if skipsMisfire task now then do
    let next ← nextRunAfter env now task
    let noted := s.note [misfireNote env now task]
    pure { noted with
      tables := noted.tables.write
        (ranRow now task "misfire_skipped" next task.updatedAt)
      skipped := s.skipped + 1 }
  else do
    let (s', outcomes) ← (targetAgents s.tables.fleet task).foldlM
      (agentTurn env now task) (s, [])
    let next ← nextRunAfter env now task
    pure { s' with
      tables := s'.tables.write
        (ranRow now task (runStatus outcomes) next now) }

/-! ## A pass -/

/-- The session once every due task had its turn. -/
def runPass (tables : SchedulerTables) : Except PassError PassState :=
  (dueTasks tables now).foldlM (taskTurn env now) { tables := tables }

/-- `dispatch_scheduled_tasks_once` with a session of its own: what is stored
afterwards, and the counters it returns. -/
def dispatchScheduledTasksOnce (tables : SchedulerTables) :
    Except PassError (SchedulerTables × Nat × Nat) := do
  let s ← runPass env now tables
  pure (if 0 < s.dispatched ∨ 0 < s.skipped then s.tables else tables,
    s.dispatched, s.skipped)

/-- One round of `scheduled_task_dispatcher`: an error is printed. -/
def dispatcherRound (tables : SchedulerTables) : SchedulerTables :=
  match dispatchScheduledTasksOnce env now tables with
  | .ok r => r.1
  | .error _ => tables

end Pass

/-! ## Storing tasks -/

/-- `ScheduledTaskCreate`, its defaults filled in. -/
structure ScheduledTaskCreate where
  name : String
  description : Option String := none
  enabled : Bool := true
  targetType : ScheduleTargetType
  targetID : String
  cronExpression : String
  timezone : String := "UTC"
  kind : CommandKind
  scriptVersionID : Option String := none
  payload : PyDict
  concurrencyPolicy : ScheduleConcurrencyPolicy := .skip
  misfirePolicy : ScheduleMisfirePolicy := .runOnce

/-- The schema's own checks. -/
def ScheduledTaskCreate.valid (foreignDigit : Char → Option Nat)
    (body : ScheduledTaskCreate) : Bool :=
  decide (1 ≤ body.name.length ∧ body.name.length ≤ 200)
    && body.description.all (fun d => decide (d.length ≤ 2000))
    && decide (1 ≤ body.targetID.length ∧ body.targetID.length ≤ 36)
    && decide (5 ≤ body.cronExpression.length ∧ body.cronExpression.length ≤ 100)
    && decide (1 ≤ body.timezone.length ∧ body.timezone.length ≤ 100)
    && body.scriptVersionID.all (fun v => decide (v.length ≤ 36))
    && validateCronExpression foreignDigit body.cronExpression
    && !isPowerOperation body.kind

inductive StoreError where
  | invalid
  | notFound
  | forbidden
  | badSchedule (e : NextRunError)
  deriving DecidableEq, Repr

/-- The target exists, and the operator may act on its client. -/
def checkTarget (fleet : Fleet) (operator : Operator)
    (targetType : ScheduleTargetType) (targetID : String) :
    Except StoreError Unit := do
  let auth := fleet.approvals.toAuthority
  let client ← match targetType with
    | .agent =>
      match fleet.agents.find? fun agent => decide (agent.id = targetID) with
      | none => .error .notFound
      | some agent => .ok (auth.agentClientID agent.toAgentPlace)
    | .site =>
      match auth.directory.siteClient targetID with
      | none => .error .notFound
      | some client => .ok (some client)
  match auth.clientAction operator client .clientOperator with
  | .allowed => .ok ()
  | .notVisible => .error .notFound
  | .roleInsufficient => .error .forbidden

/-- `create_scheduled_task`: the row that is stored. -/
def createScheduledTask (env : SchedulerEnv) (fleet : Fleet)
    (operator : Operator) (id : String) (body : ScheduledTaskCreate)
    (now : Int) : Except StoreError ScheduledTask := do
  require (body.valid env.foreignDigit = true) .invalid
  checkTarget fleet operator body.targetType body.targetID
  let next ← (computeNextRun env.foreignDigit env.zones
    (strip body.cronExpression) body.timezone now).mapError .badSchedule
  pure {
    id := id
    name := body.name
    description := body.description
    enabled := body.enabled
    targetType := body.targetType
    targetID := body.targetID
    cronExpression := strip body.cronExpression
    timezone := body.timezone
    kind := body.kind
    scriptVersionID := body.scriptVersionID
    payload := body.payload
    concurrencyPolicy := body.concurrencyPolicy
    misfirePolicy := body.misfirePolicy
    nextRunAt := next
    createdByOperatorID := some operator.id
    createdByEmail := some operator.email
    createdAt := now
    updatedAt := now }

end NodeLink.Server.Scheduler
