import Mathlib.Data.List.Basic
import NodeLink.Lib.Trim
import NodeLink.Lib.Utf8
import NodeLink.Server.CommandTable

/-!
# Staged agent updates

`core/agent_updates.py`: the order of versions, which endpoints a release may
reach and when its failures halt it; and the rows of `api/agent_updates.py`
with the columns its requests read and write. The digits of `\d`, the lower
case of a text and SHA-256 are parameters.
-/

namespace NodeLink.Server.AgentUpdates

open Lib Server

/-- `AgentUpdateReleaseState` -/
inductive ReleaseState where
  | published
  | rolling
  | paused
  | halted
  | completed
  deriving DecidableEq, Repr

/-- `AgentUpdateAttemptStatus` -/
inductive AttemptStatus where
  | dispatched
  | staged
  | succeeded
  | rolledBack
  | failed
  deriving DecidableEq, Repr

/-- `AgentUpdateRelease` -/
structure AgentUpdateRelease where
  id : String
  version : String
  channel : String
  platform : String
  minSupportedVersion : String
  state : ReleaseState := .published
  rolloutPercent : Nat := 0
  failureThresholdPercent : Nat := 20
  minAttemptsBeforeHalt : Nat := 5
  updatedAt : Int
  haltedAt : Option Int := none
  haltedReason : Option String := none
  deriving DecidableEq, Repr

/-- `AgentUpdateAttempt`, of the one release. -/
structure AgentUpdateAttempt where
  agentId : String
  commandId : String
  status : AttemptStatus := .dispatched
  fromVersion : Option String
  toVersion : Option String
  observedVersion : Option String := none
  reason : Option String := none
  healthAttempts : Nat := 0
  rolloutBucket : Nat
  dispatchedAt : Int
  reportedAt : Option Int := none
  deriving DecidableEq, Repr

/-- A queued `agent_self_update` command of the release. -/
structure UpdateCommand where
  id : String
  agentId : String
  releaseId : String
  version : String
  issuedAt : Int
  expiresAt : Int
  deriving DecidableEq, Repr

/-- The columns of `Agent` that targeting reads, and whether an approval policy
covers its updates. -/
structure UpdateAgent where
  id : String
  os : String := ""
  architecture : String := ""
  updateChannel : Option String := none
  agentVersion : String := ""
  supportedCapabilities : List String := []
  commandEnvelopeVersions : List String := []
  trustActive : Bool := true
  revoked : Bool := false
  approvalPolicy : Bool := false
  deriving DecidableEq, Repr

/-- What the functions rest on. -/
structure UpdateOps where
  sha256 : Bytes → Bytes
  /-- The value of a decimal digit of any script. -/
  digit : Char → Option Nat
  lower : String → String

/-! ## Versions -/

section Versions

variable (ops : UpdateOps)

def digitsValue (digits : List Char) : Nat :=
  digits.foldl (fun n c => 10 * n + (ops.digit c).getD 0) 0

/-- `(\d{1,6})`, where no digit may follow. -/
def readNumber (s : List Char) : Option (Nat × List Char) :=
  if 1 ≤ (s.takeWhile fun c => (ops.digit c).isSome).length ∧
      (s.takeWhile fun c => (ops.digit c).isSome).length ≤ 6 then
    some (digitsValue ops (s.takeWhile fun c => (ops.digit c).isSome),
      s.dropWhile fun c => (ops.digit c).isSome)
  else none

def readPoint : List Char → Option (List Char)
  | '.' :: s => some s
  | _ => none

/-- `(?:-([0-9A-Za-z.-]{1,64}))?` up to the end. -/
def readPrerelease : List Char → Option (List Char)
  | [] => some []
  | '-' :: s =>
    if 1 ≤ s.length ∧ s.length ≤ 64 ∧
        s.all (fun c => c.isAlphanum || c == '.' || c == '-') = true then some s
    else none
  | _ => none

/-- `parse_version` -/
def parseVersion (raw : String) : Option (Nat × Nat × Nat × List Char) := do
  let (major, s) ← readNumber ops raw.toList
  let s ← readPoint s
  let (minor, s) ← readNumber ops s
  let s ← readPoint s
  let (patch, s) ← readNumber ops s
  let prerelease ← readPrerelease s
  some (major, minor, patch, prerelease)

def isNumeric (item : List Char) : Bool :=
  decide (item ≠ []) && item.all Char.isDigit

/-- Two items of `_prerelease_key`: numbers sort below texts. -/
def compareItem (l r : List Char) : Ordering :=
  match isNumeric l, isNumeric r with
  | true, true => compare (Nat.ofDigitChars 10 l 0) (Nat.ofDigitChars 10 r 0)
  | true, false => .lt
  | false, true => .gt
  | false, false => List.compareLex (fun c d => compare c.toNat d.toNat) l r

/-- `compare_versions` -/
def compareVersions (left right : String) : Option Ordering := do
  let (major, minor, patch, prerelease) ← parseVersion ops left
  let (major', minor', patch', prerelease') ← parseVersion ops right
  some ((compare major major').then ((compare minor minor').then
    ((compare patch patch').then
      ((compare (if prerelease = [] then 1 else 0)
        (if prerelease' = [] then 1 else 0)).then
          (List.compareLex compareItem (prerelease.splitOn '.')
            (prerelease'.splitOn '.'))))))

end Versions

/-! ## Targeting -/

section Targeting

variable (ops : UpdateOps)

/-- `rollout_bucket` -/
def rolloutBucket (releaseId agentId : String) : Nat :=
  ((ops.sha256 (utf8 (releaseId.toList ++ ':' :: agentId.toList))).take 4).foldl
    (fun n b => 256 * n + b.toNat) 0 % 100

def platformPart (s : List Char) : Bool :=
  decide (1 ≤ s.length ∧ s.length ≤ 16) &&
    s.all fun c => decide (('a' ≤ c ∧ c ≤ 'z') ∨ ('0' ≤ c ∧ c ≤ '9'))

/-- `agent_platform` -/
def agentPlatform (a : UpdateAgent) : Option String :=
  if ops.lower (strip a.os) = "" ∨ ops.lower (strip a.architecture) = "" then none
  else if platformPart (ops.lower (strip a.os)).toList = true ∧
      platformPart (ops.lower (strip a.architecture)).toList = true then
    some (ops.lower (strip a.os) ++ "/" ++ ops.lower (strip a.architecture))
  else none

/-- `agent_channel` -/
def agentChannel (a : UpdateAgent) : String :=
  if ops.lower (strip (a.updateChannel.getD "")) ∈ ["stable", "beta", "canary"]
  then ops.lower (strip (a.updateChannel.getD ""))
  else "stable"

structure EligibilityDecision where
  eligible : Bool
  reason : String
  deriving DecidableEq, Repr

/-- The comparisons of `evaluate_eligibility`: why it refuses, if it does. -/
def versionRefusal (r : AgentUpdateRelease) (current : String) : Option String :=
  match compareVersions ops current r.version with
  | none => some "agent_version_uncomparable"
  | some .eq => some "already_current"
  | some .gt => some "downgrade_refused"
  | some .lt =>
    match compareVersions ops r.version r.minSupportedVersion with
    | none => some "agent_version_uncomparable"
    | some .lt => some "below_min_supported_version"
    | some _ => none

/-- `evaluate_eligibility` -/
def evaluateEligibility (r : AgentUpdateRelease) (a : UpdateAgent) :
    EligibilityDecision :=
  if a.trustActive = false then ⟨false, "agent_not_trusted"⟩
  else if "agent-self-update-v1" ∉ a.supportedCapabilities then
    ⟨false, "capability_unsupported"⟩
  else
    match agentPlatform ops a with
    | none => ⟨false, "platform_unknown"⟩
    | some platform =>
      if platform ≠ r.platform then ⟨false, "platform_mismatch"⟩
      else if agentChannel ops a ≠ r.channel then ⟨false, "channel_mismatch"⟩
      else if strip a.agentVersion = "" then ⟨false, "agent_version_unknown"⟩
      else
        match versionRefusal ops r (strip a.agentVersion) with
        | some reason => ⟨false, reason⟩
        | none =>
          if r.rolloutPercent ≤ rolloutBucket ops r.id a.id then
            ⟨false, "outside_rollout_stage"⟩
          else ⟨true, "eligible"⟩

end Targeting

/-! ## Halting -/

structure HaltDecision where
  halt : Bool
  reason : String
  resolved : Nat
  failed : Nat
  succeeded : Nat
  deriving DecidableEq, Repr

/-- `_status_counts` -/
def statusCount (attempts : List AgentUpdateAttempt) (status : AttemptStatus) :
    Nat := attempts.countP fun a => decide (a.status = status)

/-- `evaluate_halt` -/
def evaluateHalt (r : AgentUpdateRelease) (attempts : List AgentUpdateAttempt) :
    HaltDecision :=
  if statusCount attempts .succeeded +
      (statusCount attempts .rolledBack + statusCount attempts .failed) <
      r.minAttemptsBeforeHalt then
    ⟨false, "insufficient_evidence", statusCount attempts .succeeded +
      (statusCount attempts .rolledBack + statusCount attempts .failed),
      statusCount attempts .rolledBack + statusCount attempts .failed,
      statusCount attempts .succeeded⟩
  else if r.failureThresholdPercent * (statusCount attempts .succeeded +
      (statusCount attempts .rolledBack + statusCount attempts .failed)) ≤
      (statusCount attempts .rolledBack + statusCount attempts .failed) * 100 then
    ⟨true, "failure_threshold_exceeded", statusCount attempts .succeeded +
      (statusCount attempts .rolledBack + statusCount attempts .failed),
      statusCount attempts .rolledBack + statusCount attempts .failed,
      statusCount attempts .succeeded⟩
  else
    ⟨false, "within_threshold", statusCount attempts .succeeded +
      (statusCount attempts .rolledBack + statusCount attempts .failed),
      statusCount attempts .rolledBack + statusCount attempts .failed,
      statusCount attempts .succeeded⟩

/-! ## Dispatching -/

/-- What the loop of `advance_rollout` makes of the endpoints: those it
dispatches to, why it skips others, and whether it stopped at the bound. -/
structure Targeted where
  agents : List UpdateAgent := []
  skipped : List String := []
  truncated : Bool := false
  deriving DecidableEq, Repr

section Dispatching

variable (ops : UpdateOps)

/-- Why an endpoint is passed over, if it is. -/
def passOver (r : AgentUpdateRelease) (already : List String)
    (a : UpdateAgent) : Option String :=
  if a.id ∈ already then some "already_attempted"
  else if (evaluateEligibility ops r a).eligible = false then
    some (evaluateEligibility ops r a).reason
  else if selectCommandEnvelopeVersion a.commandEnvelopeVersions ≠
      some "command-v3" then some "envelope_unsupported"
  else if a.approvalPolicy = true then some "approval_required"
  else none

/-- The loop of `advance_rollout`, `left` dispatches before the bound. -/
def target (r : AgentUpdateRelease) (already : List String) :
    Nat → List UpdateAgent → Targeted
  | _, [] => {}
  | left, a :: candidates =>
    match passOver ops r already a with
    | some reason =>
      { target r already left candidates with
        skipped := reason :: (target r already left candidates).skipped }
    | none =>
      match left with
      | 0 => { truncated := true }
      | left + 1 =>
        { target r already left candidates with
          agents := a :: (target r already left candidates).agents }

/-- Six hours, in microseconds. -/
def updateCommandTTL : Int := 21600000000

/-- `_dispatch_update_command` -/
def dispatchUpdateCommand (r : AgentUpdateRelease) (now : Int) (id : String)
    (a : UpdateAgent) : UpdateCommand where
  id := id
  agentId := a.id
  releaseId := r.id
  version := r.version
  issuedAt := now
  expiresAt := now + updateCommandTTL

/-- The attempt that is added beside a command. -/
def newAttempt (r : AgentUpdateRelease) (now : Int) (commandId : String)
    (a : UpdateAgent) : AgentUpdateAttempt where
  agentId := a.id
  commandId := commandId
  fromVersion := some a.agentVersion
  toVersion := some r.version
  rolloutBucket := rolloutBucket ops r.id a.id
  dispatchedAt := now

end Dispatching

end NodeLink.Server.AgentUpdates
