import Mathlib.Data.Prod.Lex
import NodeLink.Lib.Trim
import NodeLink.Lib.Utf8
import NodeLink.Server.Maintenance

/-!
# Restarts and maintenance windows, on the server

`api/management.py`: `_apply_power_operation_policy`, and the expiry
`dispatch_command` gives the command. `core/patch_policies.py`: the part of
`evaluate_patch_install` after the rules, which enter as what they selected.
The end of a window travels as its instant.
-/

namespace NodeLink.Server

open Lib

/-! ## Power operations -/

inductive UserConsent where
  | confirmed
  | noUserSession
  deriving DecidableEq, Repr

/-- `10 <= len(reason.encode()) <= 512`, and no control character. -/
def reasonBounded (reason : String) : Bool :=
  decide (10 ≤ (utf8 reason.toList).length)
    && decide ((utf8 reason.toList).length ≤ 512)
    && reason.toList.all fun c => decide (32 ≤ c.toNat ∧ c.toNat ≠ 127)

/-- The payload of a `reboot` or `shutdown`, as its validator leaves it. -/
structure PowerPayload where
  reason : String
  delaySeconds : Nat
  userConsent : UserConsent
  reason_stripped : strip reason = reason
  reason_bounded : reasonBounded reason = true
  delay_ge : 30 ≤ delaySeconds
  delay_le : delaySeconds ≤ 3600

/-- The payload with the evidence that is signed. -/
structure SignedPower where
  payload : PowerPayload
  maintenanceWindowID : String
  maintenanceWindowEndsAt : Int
  userPresentAtDispatch : Bool

inductive PowerRefusal where
  | maintenanceWindowRequired
  | delayExceedsMaintenanceWindow
  | userConsentRequired
  deriving DecidableEq, Repr

def PowerRefusal.code : PowerRefusal → String
  | .maintenanceWindowRequired => "power_operation_maintenance_window_required"
  | .delayExceedsMaintenanceWindow =>
    "power_operation_delay_exceeds_maintenance_window"
  | .userConsentRequired => "power_operation_user_consent_required"

/-- The latest heartbeat names a user, or there is no heartbeat. A heartbeat
holds the logged-in user it reported, if any. -/
def userPresent : Option (Option String) → Bool
  | none => true
  | some user => decide (strip (user.getD "") ≠ "")

/-- `min(windows, key=(ends_at, id))` -/
def earliestEnding (windows : List MaintenanceWindow) :
    Option MaintenanceWindow :=
  windows.argmin fun w => (toLex (w.endsAt, w.id) : Lex (Int × String))

/-- The server's tables, as far as windows go. -/
structure WindowTables where
  zones : ZoneTable
  directory : Directory
  windows : List MaintenanceWindow

def WindowTables.active (tables : WindowTables) (agent : AgentPlace)
    (instant : Int) : List MaintenanceWindow :=
  activeMaintenanceWindows tables.zones tables.directory tables.windows agent
    instant

/-- `_apply_power_operation_policy` for a `reboot` or `shutdown`. -/
def applyPowerOperationPolicy (tables : WindowTables) (agent : AgentPlace)
    (latest : Option (Option String)) (payload : PowerPayload) (now : Int) :
    Except PowerRefusal SignedPower :=
  match earliestEnding (tables.active agent now) with
  | none => .error .maintenanceWindowRequired
  | some window =>
    if window.endsAt < now + payload.delaySeconds * 1000000 then
      .error .delayExceedsMaintenanceWindow
    else if payload.userConsent = .noUserSession ∧ userPresent latest then
      .error .userConsentRequired
    else .ok ⟨payload, window.id, window.endsAt, userPresent latest⟩

/-- `min(now + ttl, power_window_end)` -/
def powerExpiresAt (now ttlSeconds windowEnd : Int) : Int :=
  min (now + ttlSeconds * 1000000) windowEnd

/-! ## Installing updates -/

inductive RebootPolicy where
  | never
  | ifRequired
  | forced
  deriving DecidableEq, Repr

/-- A revision of a patch approval policy, without its rules. -/
structure PatchRevision where
  requireMaintenanceWindow : Bool
  rebootPolicy : RebootPolicy
  rebootDelaySeconds : Nat
  rebootRequiresNoUser : Bool
  maxInstallAttempts : Nat
  deriving DecidableEq, Repr

/-- What the rules made of a request: the identifiers approved when all
updates were asked for, and those of an explicit selection that are blocked. -/
structure PatchSelection where
  installAll : Bool
  approved : List String
  blocked : List String
  deriving DecidableEq, Repr

inductive PatchOutcome where
  | maintenanceWindowRequired
  | noApprovedUpdates
  | denied
  | allowed
  deriving DecidableEq, Repr

/-- The signed `reboot` block. -/
structure RebootEvidence where
  policy : RebootPolicy
  delaySeconds : Nat
  requiresNoUser : Bool
  userPresentAtDispatch : Bool
  maintenanceWindowID : Option String
  maintenanceWindowEndsAt : Option Int
  deriving DecidableEq, Repr

structure PatchDecision where
  outcome : PatchOutcome
  maxAttempts : Option Nat
  reboot : Option RebootEvidence
  deriving DecidableEq, Repr

def patchOutcome (revision : PatchRevision) (selection : PatchSelection)
    (windows : List MaintenanceWindow) : PatchOutcome :=
  if revision.requireMaintenanceWindow ∧ windows = [] then
    .maintenanceWindowRequired
  else if selection.installAll ∧ selection.approved = [] then .noApprovedUpdates
  else if ¬ selection.installAll ∧ selection.blocked ≠ [] then .denied
  else .allowed

/-- The window the evidence names: none where the policy requires none. -/
def rebootWindow (revision : PatchRevision)
    (windows : List MaintenanceWindow) : Option MaintenanceWindow :=
  if revision.requireMaintenanceWindow then earliestEnding windows else none

def rebootEvidence (revision : PatchRevision)
    (windows : List MaintenanceWindow) (latest : Option (Option String)) :
    Option RebootEvidence :=
  if revision.rebootPolicy = .never then none
  else some {
    policy := revision.rebootPolicy
    delaySeconds := revision.rebootDelaySeconds
    requiresNoUser := revision.rebootRequiresNoUser
    userPresentAtDispatch := userPresent latest
    maintenanceWindowID := (rebootWindow revision windows).map (·.id)
    maintenanceWindowEndsAt := (rebootWindow revision windows).map (·.endsAt) }

/-- `evaluate_patch_install`, after the rules. `supportsReboot` is the agent's
`patch-reboot-v1` capability. -/
def evaluatePatchInstall (tables : WindowTables) (agent : AgentPlace)
    (supportsReboot : Bool) (latest : Option (Option String))
    (revision : PatchRevision) (selection : PatchSelection) (now : Int) :
    PatchDecision :=
  if patchOutcome revision selection (tables.active agent now) = .allowed
      ∧ supportsReboot = true then
    { outcome := .allowed
      maxAttempts := some revision.maxInstallAttempts
      reboot := rebootEvidence revision (tables.active agent now) latest }
  else
    { outcome := patchOutcome revision selection (tables.active agent now)
      maxAttempts := none
      reboot := none }

end NodeLink.Server
