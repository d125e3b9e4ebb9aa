import NodeLink.Lib.Actions
import NodeLink.Server.AgentUpdates

/-!
# Rollout control

The requests of `api/agent_updates.py` on one release: advancing, pausing,
resuming and halting it, and the outcome reports of endpoints. Each reads the
release and its attempts without a lock, in the order of its statements, and
commits once; a commit writes the columns that differ from the copy that was
read. There is one attempt for an endpoint.
-/

namespace NodeLink.Server.Rollouts

open Lib Server.AgentUpdates

/-- `SelfUpdateReportIn`, for the one release. -/
structure SelfUpdateReport where
  status : AttemptStatus
  fromVersion : Option String := none
  toVersion : Option String := none
  observedVersion : Option String := none
  reason : Option String := none
  attempts : Nat := 0
  deriving DecidableEq, Repr

inductive Request where
  /-- `advance_rollout` -/
  | advance (rolloutPercent maxDispatch : Nat)
  /-- `pause_release` -/
  | pause
  /-- `resume_release` -/
  | resume
  /-- `halt_release` -/
  | halt
  /-- `report_self_update` -/
  | report (agentId : String) (body : SelfUpdateReport)
  deriving DecidableEq, Repr

/-- What a request is going to commit: the release as it leaves its copy, the
attempts and commands it adds, and the attempt it changes, as it was read and
as it leaves it. -/
structure Writes where
  release : AgentUpdateRelease
  attempts : List AgentUpdateAttempt := []
  commands : List UpdateCommand := []
  outcome : Option (AgentUpdateAttempt × AgentUpdateAttempt) := none
  deriving DecidableEq, Repr

/-- A request under way: the release as it was read, for a report its attempt;
whether the halt rule has let an advance pass; and what it writes, once that is
settled. -/
structure Txn where
  request : Request
  read : AgentUpdateRelease
  attempt : Option AgentUpdateAttempt := none
  passed : Bool := false
  writes : Option Writes := none
  deriving DecidableEq, Repr

structure State where
  release : AgentUpdateRelease
  attempts : List AgentUpdateAttempt := []
  commands : List UpdateCommand := []
  fleet : List UpdateAgent := []
  txns : Open Txn := {}
  deriving DecidableEq, Repr

inductive Action where
  /-- Endpoints enroll, check in and are revoked. -/
  | fleet (agents : List UpdateAgent)
  /-- The first read, and all of it for a pause or a halt. -/
  | begin (t : Nat) (now : Int) (request : Request)
  /-- The halt rule, over the attempts as they stand. -/
  | count (t : Nat) (now : Int)
  /-- The loop of an advance; the ids are the ones of its commands. -/
  | target (t : Nat) (now : Int) (ids : List String)
  | commit (t : Nat)
  | abort (t : Nat)
  deriving DecidableEq, Repr

/-! ## What requests do to their copy -/

/-- `_halt_release` -/
def haltRelease (r : AgentUpdateRelease) (reason : String) (now : Int) :
    AgentUpdateRelease :=
  { r with
    state := .halted
    haltedAt := some now
    haltedReason := some reason
    updatedAt := now }

/-- Refused for the release as it was read, and with what code. -/
def refusal (r : AgentUpdateRelease) : Request → Option String
  | .advance rolloutPercent _ =>
    if r.state = .paused ∨ r.state = .halted then
      some "agent_update_release_not_active"
    else if r.state = .completed then some "agent_update_release_completed"
    else if rolloutPercent < r.rolloutPercent then
      some "agent_update_rollout_cannot_shrink"
    else none
  | .pause =>
    if r.state = .halted then some "agent_update_release_halted" else none
  | .resume =>
    if r.state = .halted then some "agent_update_release_halted"
    else if r.state ≠ .paused then some "agent_update_release_not_paused"
    else none
  -- halted already: the request answers without writing
  | .halt => if r.state = .halted then some "" else none
  | .report _ _ => none

/-- `advance_rollout` before its loop. -/
def advanced (r : AgentUpdateRelease) (rolloutPercent : Nat) (now : Int) :
    AgentUpdateRelease :=
  { r with
    rolloutPercent := rolloutPercent
    state := .rolling
    updatedAt := now }

def resumed (r : AgentUpdateRelease) (now : Int) : AgentUpdateRelease :=
  { r with
    state := if 0 < r.rolloutPercent then .rolling else .published
    updatedAt := now }

def orNone (value fallback : Option String) : Option String :=
  match value with
  | none => fallback
  | some v => if v = "" then fallback else some v

/-- The attempt as a report leaves it. -/
def reported (a : AgentUpdateAttempt) (body : SelfUpdateReport) (now : Int) :
    AgentUpdateAttempt :=
  { a with
    status := body.status
    fromVersion := orNone body.fromVersion a.fromVersion
    toVersion := orNone body.toVersion a.toVersion
    observedVersion := body.observedVersion
    reason := body.reason
    healthAttempts := body.attempts
    reportedAt := some now }

/-! ## What a commit writes -/

/-- The release row, given the copy that was read and the copy as it was
left. -/
def releaseEdit (read new row : AgentUpdateRelease) : AgentUpdateRelease :=
  { row with
    state := written (decide (new.state = read.state)) new.state row.state
    rolloutPercent := written
      (decide (new.rolloutPercent = read.rolloutPercent)) new.rolloutPercent
      row.rolloutPercent
    updatedAt := written (decide (new.updatedAt = read.updatedAt)) new.updatedAt
      row.updatedAt
    haltedAt := written (decide (new.haltedAt = read.haltedAt)) new.haltedAt
      row.haltedAt
    haltedReason := written (decide (new.haltedReason = read.haltedReason))
      new.haltedReason row.haltedReason }

def attemptEdit (read new row : AgentUpdateAttempt) : AgentUpdateAttempt :=
  { row with
    status := written (decide (new.status = read.status)) new.status row.status
    fromVersion := written (decide (new.fromVersion = read.fromVersion))
      new.fromVersion row.fromVersion
    toVersion := written (decide (new.toVersion = read.toVersion)) new.toVersion
      row.toVersion
    observedVersion := written
      (decide (new.observedVersion = read.observedVersion)) new.observedVersion
      row.observedVersion
    reason := written (decide (new.reason = read.reason)) new.reason row.reason
    healthAttempts := written
      (decide (new.healthAttempts = read.healthAttempts)) new.healthAttempts
      row.healthAttempts
    reportedAt := written (decide (new.reportedAt = read.reportedAt))
      new.reportedAt row.reportedAt }

/-- The attempts, one of them changed. -/
def withOutcome (attempts : List AgentUpdateAttempt) :
    Option (AgentUpdateAttempt × AgentUpdateAttempt) → List AgentUpdateAttempt
  | none => attempts
  | some (read, new) =>
    attempts.map fun a =>
      if a.agentId = read.agentId then attemptEdit read new a else a

section Steps

variable (ops : UpdateOps)

/-- The halt rule, and what the request goes on with: its writes, or, for an
advance that passes, its loop. -/
def counted (s : State) (x : Txn) (now : Int) : Txn :=
  match x.request with
  | .report _ body =>
    -- a report reads the release only now, and counts its own outcome
    match x.attempt with
    | none => { x with writes := some { release := x.read } }
    | some a =>
      { x with
        read := s.release
        writes := some
          { release :=
              if (evaluateHalt s.release (withOutcome s.attempts
                  (some (a, reported a body now)))).halt = true ∧
                s.release.state ≠ .halted then
                haltRelease s.release (evaluateHalt s.release
                  (withOutcome s.attempts (some (a, reported a body now)))).reason
                  now
              else s.release
            outcome := some (a, reported a body now) } }
  | .advance _ _ =>
    if (evaluateHalt x.read s.attempts).halt = true then
      { x with
        writes := some
          { release := haltRelease x.read
              (evaluateHalt x.read s.attempts).reason now } }
    else { x with passed := true }
  | .resume =>
    if (evaluateHalt x.read s.attempts).halt = true then
      { x with
        writes := some
          { release := haltRelease x.read
              (evaluateHalt x.read s.attempts).reason now } }
    else { x with writes := some { release := resumed x.read now } }
  | _ => x

/-- The endpoints an advance targets. -/
def targeted (s : State) (r : AgentUpdateRelease) (maxDispatch : Nat) :
    List UpdateAgent :=
  (target ops r (s.attempts.map (·.agentId)) maxDispatch
    (s.fleet.filter fun a => !a.revoked)).agents

/-- What an advance writes once its loop is through. -/
def advanceWrites (r : AgentUpdateRelease) (now : Int) (ids : List String)
    (agents : List UpdateAgent) : Writes where
  release := r
  attempts := List.zipWith (newAttempt ops r now) ids agents
  commands := List.zipWith (dispatchUpdateCommand r now) ids agents

/-- The first read of a request. -/
def opened (s : State) (now : Int) (request : Request) : Txn :=
  match request with
  | .pause =>
    { request, read := s.release
      writes := some
        { release :=
            { s.release with
              state := .paused
              updatedAt := now } } }
  | .halt =>
    { request, read := s.release
      writes := some
        { release := haltRelease s.release "operator_halted" now } }
  | .report agentId _ =>
    { request, read := s.release
      attempt := s.attempts.find? fun a => decide (a.agentId = agentId) }
  | _ => { request, read := s.release }

/-- Attempts are unique, so an endpoint is not added twice. -/
def unique (s : State) (w : Writes) : Bool :=
  decide ((w.attempts ++ s.attempts).map (·.agentId)).Nodup

def enabled (s : State) : Action → Bool
  | .fleet _ => true
  | .begin t _ _ => (s.txns.get t).isNone
  | .count t _ =>
    match s.txns.get t with
    | some x => x.writes.isNone && !x.passed
    | none => false
  | .target t now ids =>
    match s.txns.get t with
    | some x =>
      match x.request with
      | .advance rolloutPercent maxDispatch =>
        x.writes.isNone && x.passed && decide (ids.length =
          (targeted ops s (advanced x.read rolloutPercent now)
            maxDispatch).length)
      | _ => false
    | none => false
  | .commit t =>
    match s.txns.get t with
    | some x =>
      match x.writes with
      | some w => unique s w
      | none => false
    | none => false
  | .abort t => (s.txns.get t).isSome

def next (s : State) : Action → State
  | .fleet agents => { s with fleet := agents }
  | .begin t now request =>
    match refusal s.release request with
    | some _ => s
    | none => { s with txns := s.txns.put t (opened s now request) }
  | .count t now =>
    match s.txns.get t with
    | none => s
    | some x => { s with txns := s.txns.put t (counted s x now) }
  | .target t now ids =>
    match s.txns.get t with
    | none => s
    | some x =>
      match x.request with
      | .advance rolloutPercent maxDispatch =>
        { s with
          txns := s.txns.put t
            { x with
              writes := some (advanceWrites ops
                (advanced x.read rolloutPercent now) now ids
                (targeted ops s (advanced x.read rolloutPercent now)
                  maxDispatch)) } }
      | _ => s
  | .commit t =>
    match s.txns.get t with
    | none => s
    | some x =>
      match x.writes with
      | none => s
      | some w =>
        { s with
          release := releaseEdit x.read w.release s.release
          attempts := w.attempts ++ withOutcome s.attempts w.outcome
          commands := w.commands ++ s.commands
          txns := s.txns.close t }
  | .abort t => { s with txns := s.txns.close t }

/-- The requests on one release. -/
def system : System State Action := ⟨enabled ops, next ops⟩

end Steps

end NodeLink.Server.Rollouts
