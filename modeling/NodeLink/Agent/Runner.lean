import NodeLink.Agent.SeenStore

/-!
# The agent's check-in loop

`internal/service/runner.go`, as far as it drives the command journal:
loading a session, one check-in, and the gate every command passes. A fatal
error ends the process, any other one is retried on a later beat.

Stopping the service in the middle of a batch leaves out the rest of the
batch; a heartbeat that hands out fewer commands does the same.
-/

namespace NodeLink.Agent

open Lib

/-- How a step of the runner returns: no error, an error, a fatal error. -/
inductive Outcome where
  | ok
  | failed
  | fatal
  deriving DecidableEq, Repr

/-- `if firstErr == nil { firstErr = err }` -/
def Outcome.first (a b : Outcome) : Outcome := if a = .ok then b else a

structure Session (Key : Type) where
  agentID : String
  keys : TrustedKeys Key
  seen : SeenStore

section Runner

variable {Key : Type} (ed25519Verify : Key → Bytes → Bytes → Bool)

/-! ## Delivering results -/

/-- Report each result; acknowledge it only once the server has it. -/
def flushLoop : List (String × CommandResult) → SeenStore → Outcome →
    AgentProg Key (Outcome × SeenStore)
  | [], seen, out => pure (out, seen)
  | (id, result) :: rest, seen, out => do
    let reported ← reportResult id result
    if reported then do
      let (ok, seen) ← seen.acknowledge id
      if ok then flushLoop rest seen out else pure (.fatal, seen)
    else flushLoop rest seen (out.first .failed)

def flushPendingResults (seen : SeenStore) :
    AgentProg Key (Outcome × SeenStore) :=
  flushLoop seen.pendingResults seen .ok

/-- Persist before reporting, refusals included. -/
def queueResult (seen : SeenStore) (commandID : String) (expiry : Int)
    (result : CommandResult) : AgentProg Key (Outcome × SeenStore) := do
  let (outcome, seen) ← seen.storeResult commandID expiry result
  if outcome = .failed then pure (.fatal, seen) else flushPendingResults seen

/-! ## The command gate -/

/-- The result of a command the agent refuses. -/
def refusal (reason : String) : CommandResult where
  exitCode := -1
  stderr := "agent refused command: " ++ reason

def refuse (seen : SeenStore) (cmd : Command) (expiry : Int) (reason : String) :
    AgentProg Key (Outcome × SeenStore) :=
  queueResult seen cmd.id expiry (refusal reason)

/-- A refusal that must be persisted: any error is fatal. -/
def refuseOrStop (seen : SeenStore) (cmd : Command) (expiry : Int)
    (reason : String) : AgentProg Key (Outcome × SeenStore) := do
  let (out, seen) ← refuse seen cmd expiry reason
  pure (if out = .ok then .ok else .fatal, seen)

/-- The envelope a command's signature is checked against. -/
def Command.envelope (cmd : Command) (agentID : String)
    (signingKeyIDs : List String) : Envelope where
  envelopeVersion := cmd.envelopeVersion
  schemaVersion := cmd.schemaVersion
  commandID := cmd.id
  agentID := agentID
  kind := cmd.kind
  payload := cmd.payload
  issuedAt := cmd.issuedAt
  expiresAt := cmd.expiresAt
  nonce := cmd.nonce
  signingKeyIDs := signingKeyIDs

/-- Why a command is not signed as it should be, if it is not. -/
def signatureRefusal (s : Session Key) (cmd : Command) : Option String :=
  if cmd.envelopeVersion = commandEnvelopeV3 then
    match s.keys.pubKeys.lookup cmd.signingKeyID with
    | none => some "unknown signing key"
    | some pub =>
      match verify ed25519Verify pub
          (cmd.envelope s.agentID [cmd.signingKeyID]) cmd.signature with
      | .ok _ => none
      | .error _ => some "signature verification failed"
  else
    match verify ed25519Verify s.keys.pub (cmd.envelope s.agentID [])
        cmd.signature with
    | .ok _ => none
    | .error _ => some "signature verification failed"

/-- Run the command and persist its result. If that fails the journal still
says "executing", and the process stops. -/
def executeCommand (seen : SeenStore) (cmd : Command) (expiry : Int) :
    AgentProg Key (Outcome × SeenStore) := do
  let res ← startProcess cmd
  let now ← readClock
  let (outcome, seen) ← seen.storeResult cmd.id expiry
    { res with agentCompletedAt := some (wallTime now) }
  if outcome = .stored then flushPendingResults seen else pure (.fatal, seen)

/-- The replay gate, and execution: both replay keys are durable before the
process may start. -/
def acceptCommand (seen : SeenStore) (cmd : Command) (expiry : Int) :
    AgentProg Key (Outcome × SeenStore) :=
  if seen.has cmd.id then do
    let (ok, seen) ← seen.requeueAcknowledged cmd.id
    if ok then flushPendingResults seen else pure (.fatal, seen)
  else if seen.hasNonce cmd.nonce then
    refuse seen cmd expiry "repeated nonce"
  else do
    let (ok, seen) ← seen.reserveCommand cmd.id cmd.nonce expiry
    if ok then do
      let (ok, seen) ← seen.markExecuting cmd.id
      if ok then executeCommand seen cmd expiry
      else refuseOrStop seen cmd expiry "execution state could not be persisted"
    else refuseOrStop seen cmd expiry "replay state could not be persisted"

/-- The accept/refuse gate for one command: identity, signature, signed time
window, replay. -/
def processCommand (s : Session Key) (cmd : Command) :
    AgentProg Key (Outcome × SeenStore) :=
  if cmd.agentID ≠ s.agentID then
    refuse s.seen cmd zeroTime "agent identity mismatch"
  else
    match signatureRefusal ed25519Verify s cmd with
    | some reason => refuse s.seen cmd zeroTime reason
    | none => do
      let now ← readClock
      match validateCommandWindow cmd.issuedAt cmd.expiresAt (wallTime now) with
      | .error _ => refuse s.seen cmd zeroTime "invalid signed time window"
      | .ok expiry => acceptCommand s.seen cmd expiry

/-! ## Check-ins -/

/-- The commands of a beat in order. A fatal error of one of them returns at
once (`none`); other errors are remembered. -/
def processCommands (s : Session Key) :
    List Command → Outcome → AgentProg Key (Option Outcome × Session Key)
  | [], out => pure (some out, s)
  | cmd :: cmds, out => do
    let (result, seen) ← processCommand ed25519Verify s cmd
    if result = .fatal then pure (none, { s with seen := seen })
    else processCommands { s with seen := seen } cmds (out.first result)

/-- `pendingResultNotices` with its limit. -/
def pendingResultNotices (seen : SeenStore) : List (String × Option Int) :=
  (seen.pendingResults.take 256).map fun p => (p.1, p.2.agentCompletedAt)

/-- Drop what has expired, and save when anything has. -/
def pruneAndSave (seen : SeenStore) : AgentProg Key (Bool × SeenStore) := do
  let now ← readClock
  let (seen, changed) := seen.prune (wallTime now)
  if changed then do
    let ok ← saveJournal seen
    pure (ok, seen)
  else pure (true, seen)

/-- What a beat does with the commands it was handed. An error of the flush
before them, even a fatal one, is returned only afterwards. -/
def runBatch (s : Session Key) (cmds : List Command) (out : Outcome) :
    AgentProg Key (Outcome × Session Key) := do
  let (drained, s) ← processCommands ed25519Verify s cmds out
  match drained with
  | none => pure (.fatal, s)
  | some out => do
    let (flushed, seen) ← flushPendingResults s.seen
    pure (out.first flushed, { s with seen := seen })

def checkIn (s : Session Key) : AgentProg Key (Outcome × Session Key) := do
  let (ok, seen) ← pruneAndSave s.seen
  let s := { s with seen := seen }
  if ok then do
    let reply ← sendHeartbeat (pendingResultNotices s.seen)
    match reply with
    | .failed => pure (.failed, s)
    | .quarantined => pure (.ok, s)
    | .ok keys cmds => do
      let (out, seen) ← flushPendingResults s.seen
      let s : Session Key := { s with keys := keys, seen := seen }
      if cmds = [] then pure (out, s) else runBatch ed25519Verify s cmds out
  else pure (.fatal, s)

/-- The journal's part of starting up: load, resolve what a crash
interrupted, drop what has expired. -/
def loadSession : AgentProg Key (Option (Session Key)) := do
  let identity ← readIdentity
  let loaded ← readJournal
  match loaded with
  | none => pure none
  | some seen => do
    let (ok, seen) ← seen.recoverInterrupted
    if ok then do
      let (ok, seen) ← pruneAndSave seen
      pure (if ok then some ⟨identity.agentID, identity.keys, seen⟩ else none)
    else pure none

/-- One turn of the loop; a fatal error ends the process. -/
def beat (s : Session Key) : AgentProg Key (Option (Session Key)) := do
  let (out, s) ← checkIn ed25519Verify s
  pure (if out = .fatal then none else some s)

/-- The agent: it boots by loading a session and then checks in again and
again. -/
def agentMachine : Machine AgentOp (AgentOp.Ans Key) (Session Key) where
  boot := loadSession
  starts := fun s p => p = beat ed25519Verify s

end Runner

end NodeLink.Agent
