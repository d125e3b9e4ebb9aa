import NodeLink.Agent.Verify
import NodeLink.Lib.Prog
import NodeLink.Lib.StrMap

/-!
# The agent's command journal

`internal/service/replay.go`: the protected, atomically persisted map from
command ids and nonce keys to entries, and its operations. The map is
passed explicitly; what an operation does outside the process (saving the
file, reading the clock) is an action of its program. `mutateAndSave`
restores the map it started from when the save reports an error, whatever
the failed save left on disk.
-/

namespace NodeLink.Agent

open Lib

/-- The durable lifecycle of an accepted command. A missing state is the
empty string of nonce keys and legacy entries. -/
inductive ExecutionState where
  | reserved
  | executing
  | resultPending
  | acknowledged
  deriving DecidableEq, Repr

/-- `client.CommandResult`. The completion time is the instant it was
formatted from. -/
structure CommandResult where
  exitCode : Int
  stdout : String := ""
  stderr : String := ""
  agentCompletedAt : Option Int := none
  stdoutTruncated : Bool := false
  stderrTruncated : Bool := false
  stdoutTotalBytes : Int := 0
  stderrTotalBytes : Int := 0
  deriving DecidableEq, Repr

/-- `client.Command`. -/
structure Command where
  id : String
  agentID : String
  kind : String
  payload : Bytes
  envelopeVersion : String
  schemaVersion : Int
  issuedAt : String
  nonce : String
  signingKeyID : String
  signature : String
  expiresAt : String
  deriving DecidableEq

/-- The command keys the agent trusts: the legacy key and the keys by id. -/
structure TrustedKeys (Key : Type) where
  pub : Key
  pubKeys : List (String × Key)

/-- How a heartbeat ends: it fails, the server answers that the agent is
quarantined, or it hands out commands. Keys may be adopted on the way. -/
inductive HeartbeatReply (Key : Type) where
  | failed
  | quarantined
  | ok (keys : TrustedKeys Key) (commands : List Command)

/-- What the process holds besides the journal when it starts. -/
structure Identity (Key : Type) where
  agentID : String
  keys : TrustedKeys Key

/-- What starting a command's process gives. -/
abbrev ExecutionResult := CommandResult

structure SeenEntry where
  expiry : Int
  nonce : String := ""
  state : Option ExecutionState := none
  result : Option CommandResult := none
  deriving DecidableEq

/-- The journal: command ids and nonce keys. -/
abbrev SeenStore := StrMap SeenEntry

/-- What the runner does outside its own memory. -/
inductive AgentOp where
  | now
  | identity
  | load
  | save (entries : SeenStore)
  | heartbeat (notices : List (String × Option Int))
  | report (commandID : String) (result : CommandResult)
  | execute (cmd : Command)

/-- The answers: the clock in nanoseconds since 1970, the journal read if it
could be, whether a save or a report went through. -/
def AgentOp.Ans (Key : Type) : AgentOp → Type
  | .now => Nat
  | .identity => Identity Key
  | .load => Option SeenStore
  | .save _ => Bool
  | .heartbeat _ => HeartbeatReply Key
  | .report _ _ => Bool
  | .execute _ => ExecutionResult

abbrev AgentProg (Key α : Type) := Prog AgentOp (AgentOp.Ans Key) α

section Actions

variable {Key : Type}

def readClock : AgentProg Key Nat := Prog.perform AgentOp.now

def readIdentity : AgentProg Key (Identity Key) := Prog.perform AgentOp.identity

def readJournal : AgentProg Key (Option SeenStore) := Prog.perform AgentOp.load

def saveJournal (entries : SeenStore) : AgentProg Key Bool :=
  Prog.perform (AgentOp.save entries)

def sendHeartbeat (notices : List (String × Option Int)) :
    AgentProg Key (HeartbeatReply Key) := Prog.perform (AgentOp.heartbeat notices)

def reportResult (commandID : String) (result : CommandResult) :
    AgentProg Key Bool := Prog.perform (AgentOp.report commandID result)

def startProcess (cmd : Command) : AgentProg Key ExecutionResult :=
  Prog.perform (AgentOp.execute cmd)

end Actions

/-! ## Times -/

/-- Go's zero time, the start of year 1. -/
def zeroTime : Int := 366 * 24 * 3600 * second

/-- The instant of a clock reading. -/
def wallTime (reading : Nat) : Int := 719528 * 24 * 3600 * second + reading

def unverifiedResultTTL : Int := 24 * 3600 * second

/-! ## Entries -/

def nonceKeyPrefix : String := "nonce:"

def nonceKey (nonce : String) : String := nonceKeyPrefix ++ nonce

/-- `strings.HasPrefix(id, nonceKeyPrefix)` -/
def hasNoncePrefix (id : String) : Bool :=
  nonceKeyPrefix.toList.isPrefixOf id.toList

/-- What a missing map entry reads as. -/
def SeenEntry.zero : SeenEntry := { expiry := zeroTime }

namespace SeenStore

variable {Key : Type}

def has (s : SeenStore) (id : String) : Bool := (s.lookup id).isSome

def hasNonce (s : SeenStore) (nonce : String) : Bool :=
  (s.lookup (nonceKey nonce)).isSome

/-- Save the mutated map; keep the map from before on an error. -/
def mutateAndSave (before after : SeenStore) : AgentProg Key (Bool × SeenStore) := do
  let ok ← saveJournal after
  if ok then pure (true, after) else pure (false, before)

/-- The map with both replay keys of a command reserved. -/
def reserved (s : SeenStore) (id nonce : String) (expiry : Int) : SeenStore :=
  let s' : SeenStore := s.insert id
    { expiry := expiry, nonce := nonce, state := some .reserved }
  s'.insert (nonceKey nonce) { expiry := expiry }

def reserveCommand (s : SeenStore) (id nonce : String) (expiry : Int) :
    AgentProg Key (Bool × SeenStore) :=
  if s.has id then pure (false, s)
  else if s.hasNonce nonce then pure (false, s)
  else mutateAndSave s (s.reserved id nonce expiry)

def markExecuting (s : SeenStore) (id : String) :
    AgentProg Key (Bool × SeenStore) :=
  match s.lookup id with
  | none => pure (false, s)
  | some entry =>
    if entry.state ≠ some .reserved then pure (false, s)
    else mutateAndSave s (s.insert id { entry with state := some .executing })

/-- The ways `StoreResult` returns. -/
inductive StoreOutcome where
  | stored
  | alreadyStored
  | failed
  deriving DecidableEq, Repr

/-- The entry `StoreResult` writes, `expiry` being used only where the entry
has none. -/
def SeenEntry.withResult (entry : SeenEntry) (expiry : Int)
    (result : CommandResult) : SeenEntry :=
  { entry with
    expiry := if entry.expiry = zeroTime then expiry else entry.expiry
    state := some .resultPending
    result := some result }

/-- A result that may not be overwritten. -/
def SeenEntry.settled (entry : SeenEntry) : Bool :=
  (entry.state == some .acknowledged || entry.state == some .resultPending)
    && entry.result.isSome

/-- The expiry of an entry stored before any signed one is trusted. -/
def resultExpiry (entry : SeenEntry) (expiry : Int) : AgentProg Key Int :=
  if entry.expiry = zeroTime ∧ expiry = zeroTime then do
    let now ← readClock
    pure (wallTime now + unverifiedResultTTL)
  else pure expiry

def storeResult (s : SeenStore) (id : String) (expiry : Int)
    (result : CommandResult) : AgentProg Key (StoreOutcome × SeenStore) :=
  let entry := (s.lookup id).getD SeenEntry.zero
  if SeenEntry.settled entry then pure (.alreadyStored, s)
  else do
    let expiry ← resultExpiry entry expiry
    let (ok, s) ← mutateAndSave s
      (s.insert id (SeenEntry.withResult entry expiry result))
    pure (if ok then .stored else .failed, s)

def acknowledge (s : SeenStore) (id : String) :
    AgentProg Key (Bool × SeenStore) :=
  match s.lookup id with
  | none => pure (false, s)
  | some entry =>
    if entry.state ≠ some .resultPending ∨ entry.result = none then
      pure (false, s)
    else mutateAndSave s (s.insert id { entry with state := some .acknowledged })

/-- Whether the save went through, when one was due. -/
def requeueAcknowledged (s : SeenStore) (id : String) :
    AgentProg Key (Bool × SeenStore) :=
  match s.lookup id with
  | none => pure (true, s)
  | some entry =>
    if entry.state ≠ some .acknowledged ∨ entry.result = none then
      pure (true, s)
    else mutateAndSave s (s.insert id { entry with state := some .resultPending })

/-- The outbox entry of a map entry, if it is one. -/
def pendingOf (e : Sigma fun _ : String => SeenEntry) :
    Option (String × CommandResult) :=
  if hasNoncePrefix e.1 || e.2.state != some .resultPending then none
  else e.2.result.map fun r => (e.1, r)

/-- The durable outbox in command id order. -/
def pendingResults (s : SeenStore) : List (String × CommandResult) :=
  (s.entries.filterMap pendingOf).insertionSort fun a b => keyLe a.1 b.1

/-! ## Recovery and pruning -/

def unknownOutcome : CommandResult where
  exitCode := -1
  stderr := "agent restarted before the command result was durably recorded; "
    ++ "execution outcome is unknown and the command was not replayed"

/-- A reservation recovery releases. -/
def releasable (id : String) (entry : SeenEntry) : Bool :=
  !hasNoncePrefix id && entry.state == some .reserved

/-- The keys the recovery loop deletes: each released reservation and its
nonce. The loop passes over nonce keys, so deleting one never hides an entry
it would have acted on. -/
def releases (s : SeenStore) (key : String) : Bool :=
  s.entries.any fun e => releasable e.1 e.2
    && (e.1 == key || (e.2.nonce != "" && nonceKey e.2.nonce == key))

/-- An interrupted execution gets the unknown-outcome result. -/
def resolveInterrupted (id : String) (entry : SeenEntry) : SeenEntry :=
  if !hasNoncePrefix id && entry.state == some .executing then
    { entry with state := some .resultPending, result := some unknownOutcome }
  else entry

def recovered (s : SeenStore) : SeenStore :=
  StrMap.filter (fun key _ => !releases s key)
    (StrMap.mapValues resolveInterrupted s)

def interrupted (s : SeenStore) : Bool :=
  s.entries.any fun e => !hasNoncePrefix e.1
    && (e.2.state == some .reserved || e.2.state == some .executing)

def recoverInterrupted (s : SeenStore) : AgentProg Key (Bool × SeenStore) :=
  if interrupted s then mutateAndSave s (recovered s) else pure (true, s)

/-- Unresolved work is kept past its signed expiry. -/
def prunable (now : Int) (entry : SeenEntry) : Bool :=
  !(entry.state == some .reserved || entry.state == some .executing
    || entry.state == some .resultPending)
    && entry.expiry != zeroTime && decide (entry.expiry < now)

def pruned (now : Int) (s : SeenStore) : SeenStore :=
  StrMap.filter (fun _ entry => !prunable now entry) s

/-- `Prune`: the map left, and whether it changed. -/
def prune (now : Int) (s : SeenStore) : SeenStore × Bool :=
  (pruned now s, s.entries.any fun e => prunable now e.2)

end SeenStore

end NodeLink.Agent
