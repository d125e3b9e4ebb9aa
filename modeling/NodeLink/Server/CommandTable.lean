import NodeLink.Agent.SeenStore

/-!
# The server's command table

`api/agents.py`: `heartbeat`, as far as it touches commands, and
`submit_result`; `api/management.py`: the rows a revocation expires. Every
request runs alone. Times are microseconds, as Python holds them; what the
agent sends is given as the parsed request body.
-/

namespace NodeLink.Server

open Lib

inductive CommandStatus where
  | queued
  | dispatched
  | running
  | resultPending
  | succeeded
  | failed
  | expired
  deriving DecidableEq, Repr

/-- The statuses `submit_result` takes a result in. -/
def CommandStatus.acceptsResults : CommandStatus → Bool
  | .dispatched | .running | .resultPending => true
  | _ => false

/-- A result is recorded. -/
def CommandStatus.recorded : CommandStatus → Bool
  | .succeeded | .failed => true
  | _ => false

/-- `schemas.CommandResult`: absent fields are `none`. -/
structure ResultBody where
  exitCode : Int
  stdout : String := ""
  stderr : String := ""
  agentCompletedAt : Option Int := none
  stdoutTruncated : Option Bool := none
  stderrTruncated : Option Bool := none
  stdoutTotalBytes : Option Int := none
  stderrTotalBytes : Option Int := none
  deriving DecidableEq, Repr

def maxResultStreamBytes : Nat := 256 * 1024 + 256

def maxResultCombinedBytes : Nat := 384 * 1024 + 256

/-- `len(value.encode("utf-8"))` -/
def byteLength (s : String) : Nat := (utf8 s.toList).length

/-- The validators of `schemas.CommandResult`. -/
def ResultBody.valid (body : ResultBody) : Bool :=
  decide (byteLength body.stdout ≤ maxResultStreamBytes)
    && decide (byteLength body.stderr ≤ maxResultStreamBytes)
    && decide (byteLength body.stdout + byteLength body.stderr
      ≤ maxResultCombinedBytes)
    && body.stdoutTotalBytes.all (0 ≤ ·) && body.stderrTotalBytes.all (0 ≤ ·)

/-- A result of the agent as the server reads it: zero and false are omitted
from the request, and Python keeps microseconds. -/
def ResultBody.ofWire (r : Agent.CommandResult) : ResultBody where
  exitCode := r.exitCode
  stdout := r.stdout
  stderr := r.stderr
  agentCompletedAt := r.agentCompletedAt.map (· / 1000)
  stdoutTruncated := if r.stdoutTruncated then some true else none
  stderrTruncated := if r.stderrTruncated then some true else none
  stdoutTotalBytes := if r.stdoutTotalBytes = 0 then none else r.stdoutTotalBytes
  stderrTotalBytes := if r.stderrTotalBytes = 0 then none else r.stderrTotalBytes

/-- A row of `commands`. The signed fields stand as the agent decodes
`CommandOut`, but for the id, which is the key of the row. -/
structure CommandRow where
  agentID : String
  envelope : Agent.Command
  createdAt : Int
  expiresAt : Option Int
  status : CommandStatus := .queued
  dispatchedAt : Option Int := none
  exitCode : Option Int := none
  stdout : Option String := none
  stderr : Option String := none
  stdoutTruncated : Option Bool := none
  stderrTruncated : Option Bool := none
  stdoutTotalBytes : Option Int := none
  stderrTotalBytes : Option Int := none
  agentCompletedAt : Option Int := none
  completedAt : Option Int := none
  deriving DecidableEq

abbrev CommandTable := StrMap CommandRow

inductive AgentTrustState where
  | active
  | quarantined
  | revoked
  deriving DecidableEq, Repr

/-! ## Heartbeats -/

structure Settings where
  maxCommandsPerHeartbeat : Nat := 10
  commandRedeliverySeconds : Nat := 120

/-- The parts of `HeartbeatIn` that matter for commands. -/
structure HeartbeatIn where
  supportedVersions : List String
  pendingResults : List (String × Option Int)

/-- The validators on `pending_results`. -/
def HeartbeatIn.valid (body : HeartbeatIn) : Bool :=
  decide (body.pendingResults.length ≤ 256)
    && body.pendingResults.all (fun n =>
      decide (1 ≤ n.1.length ∧ n.1.length ≤ 64))
    && decide (body.pendingResults.map Prod.fst).Nodup

/-- `select_command_envelope_version` -/
def selectCommandEnvelopeVersion (agentVersions : List String) :
    Option String :=
  ["command-v3", "command-v2"].find? agentVersions.contains

/-- A row the agent has finished and will upload a result for. -/
def notePending (agentID : String) (notices : List (String × Option Int))
    (id : String) (row : CommandRow) : CommandRow :=
  if row.agentID = agentID ∧ row.status.acceptsResults = true then
    match notices.lookup id with
    | none => row
    | some completedAt =>
      { row with
        status := .resultPending
        agentCompletedAt := completedAt.or row.agentCompletedAt }
  else row

/-- The rows a heartbeat may hand out: queued ones, and dispatched ones
whose lease has run out. -/
def deliverable (agentID version : String) (redeliveryBefore : Int)
    (row : CommandRow) : Bool :=
  decide (row.agentID = agentID)
    && (decide (row.status = .queued)
      || (decide (row.status = .dispatched)
        && row.dispatchedAt.any (· ≤ redeliveryBefore)))
    && decide (row.envelope.envelopeVersion = version)

/-- `ORDER BY created_at, id` -/
def olderRow (a b : String × CommandRow) : Prop :=
  a.2.createdAt < b.2.createdAt ∨
    (a.2.createdAt = b.2.createdAt ∧ Agent.keyLe a.1 b.1)

instance : DecidableRel olderRow := fun _ _ =>
  inferInstanceAs (Decidable (_ ∨ _))

/-- The loop over the deliverable rows: the rows it changes, `room` being
what is left of the batch. -/
def handOut (now : Int) : Nat → List (String × CommandRow) →
    List (String × CommandRow)
  | _, [] => []
  | 0, _ => []
  | room + 1, (id, row) :: rest =>
    if row.expiresAt.any (· < now) then
      (id, { row with status := .expired }) :: handOut now (room + 1) rest
    else
      (id, { row with status := .dispatched, dispatchedAt := some now })
        :: handOut now room rest

/-- `CommandOut.model_validate`, the signed fields. -/
def commandOut (entry : String × CommandRow) : Agent.Command :=
  { entry.2.envelope with id := entry.1 }

/-- The rows of the table with those that were changed. -/
def commitRows (changed : List (String × CommandRow)) (table : CommandTable) :
    CommandTable :=
  StrMap.mapValues (fun id row => (changed.lookup id).getD row) table

/-- The deliverable rows of a table, oldest first. -/
def selectDeliverable (agentID version : String) (redeliveryBefore : Int)
    (table : CommandTable) : List (String × CommandRow) :=
  ((table.entries.map fun e => (e.1, e.2)).filter fun e =>
    deliverable agentID version redeliveryBefore e.2).insertionSort olderRow

/-- `heartbeat`: the commands handed out and the table left, or nothing for
a request that is refused. -/
def heartbeat (settings : Settings) (agentID : String) (trust : AgentTrustState)
    (now : Int) (body : HeartbeatIn) (table : CommandTable) :
    Option (List Agent.Command × CommandTable) :=
  if body.valid = false ∨ trust = .revoked then none
  else if trust = .quarantined then some ([], table)
  else
    let table := StrMap.mapValues (notePending agentID body.pendingResults) table
    match selectCommandEnvelopeVersion body.supportedVersions with
    | none => some ([], table)
    | some version =>
      let redeliveryBefore :=
        now - 1000000 * (max 1 settings.commandRedeliverySeconds : Nat)
      let changed := handOut now (max 1 settings.maxCommandsPerHeartbeat)
        (selectDeliverable agentID version redeliveryBefore table)
      let pending := changed.filter fun e => decide (e.2.status = .dispatched)
      some (pending.map commandOut, commitRows changed table)

/-! ## Results -/

inductive SubmitReply where
  | noContent
  | unauthorized
  | unprocessable
  | agentQuarantined
  | notFound
  | resultConflict
  | notAcceptingResults (status : CommandStatus)
  deriving DecidableEq, Repr

/-- The recorded fields of a row are those of the result. -/
def CommandRow.sameResult (row : CommandRow) (body : ResultBody) : Bool :=
  decide (row.exitCode = some body.exitCode)
    && decide (row.stdout = some body.stdout)
    && decide (row.stderr = some body.stderr)
    && decide (row.stdoutTruncated = body.stdoutTruncated)
    && decide (row.stderrTruncated = body.stderrTruncated)
    && decide (row.stdoutTotalBytes = body.stdoutTotalBytes)
    && decide (row.stderrTotalBytes = body.stderrTotalBytes)
    && decide (row.agentCompletedAt = body.agentCompletedAt)

def CommandRow.record (row : CommandRow) (now : Int) (body : ResultBody) :
    CommandRow :=
  { row with
    exitCode := some body.exitCode
    stdout := some body.stdout
    stderr := some body.stderr
    stdoutTruncated := body.stdoutTruncated
    stderrTruncated := body.stderrTruncated
    stdoutTotalBytes := body.stdoutTotalBytes
    stderrTotalBytes := body.stderrTotalBytes
    agentCompletedAt := body.agentCompletedAt
    status := if body.exitCode = 0 then .succeeded else .failed
    completedAt := some now }

/-- `submit_result` -/
def submitResult (agentID : String) (trust : AgentTrustState) (now : Int)
    (commandID : String) (body : ResultBody) (table : CommandTable) :
    SubmitReply × CommandTable :=
  if trust = .revoked then (.unauthorized, table)
  else if body.valid = false then (.unprocessable, table)
  else if trust ≠ .active then (.agentQuarantined, table)
  else
    match (table.lookup commandID).filter fun row =>
        decide (row.agentID = agentID) with
    | none => (.notFound, table)
    | some row =>
      if row.status.recorded = true then
        if row.sameResult body = true then (.noContent, table)
        else (.resultConflict, table)
      else if row.status.acceptsResults = false then
        (.notAcceptingResults row.status, table)
      else (.noContent, table.insert commandID (row.record now body))

/-! ## Operators -/

/-- What revoking an agent leaves of a row. -/
def expireOnRevoke (agentID : String) (row : CommandRow) : CommandRow :=
  if row.agentID = agentID
      ∧ (row.status = .queued ∨ row.status.acceptsResults = true) then
    { row with status := .expired }
  else row

end NodeLink.Server
