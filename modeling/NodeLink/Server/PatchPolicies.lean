import Mathlib
import NodeLink.Lib.Calendar
import NodeLink.Server.Audit
import NodeLink.Server.CommandEnvelope
import NodeLink.Server.CommandTable
import NodeLink.Server.PowerPolicy

/-!
# Patch approval policies

`core/patch_policies.py`: which policy governs an agent, what its rules make
of one scanned update, and `evaluate_patch_install`, which narrows or refuses
an installation. What follows the rules there is in `PowerPolicy`.

A payload is whatever dictionary was stored, so reading it can raise. Case
mapping and `str` of a value that is no string are parameters; the rows of a
scan are those that passed the inventory's schema.
-/

namespace NodeLink.Server.PatchPolicies

open Lib

/-- What reading an unchecked value raises. -/
inductive PyError where
  | typeError
  | overflowError
  deriving DecidableEq, Repr

structure PyTextOps where
  upper : PyStr → PyStr
  lower : PyStr → PyStr
  casefold : PyStr → PyStr
  /-- `str(value)` of a value that is no string. -/
  str : PyJson → PyStr

/-- Python's case mapping on ASCII. -/
def asciiOps : PyTextOps where
  upper s := s.map fun c =>
    if 97 ≤ c.val ∧ c.val ≤ 122 then ofChar (Char.ofNat (c.val - 32)) else c
  lower s := s.map fun c =>
    if 65 ≤ c.val ∧ c.val ≤ 90 then ofChar (Char.ofNat (c.val + 32)) else c
  casefold s := s.map fun c =>
    if 65 ≤ c.val ∧ c.val ≤ 90 then ofChar (Char.ofNat (c.val + 32)) else c
  str
    | .bool true => py "True"
    | .bool false => py "False"
    | .num (.int i) => (intDigits i).map ofChar
    | _ => py "None"

/-! ## Dictionaries -/

/-- A dictionary, its members in insertion order. -/
structure PyDict where
  members : List (PyStr × PyJson)
  distinct : (Json.obj members).DistinctKeys

/-- The dictionary as the payload of an envelope. -/
def PyDict.payload (d : PyDict) : Payload := ⟨.obj d.members, d.distinct⟩

/-- `d.get(key)` -/
def PyDict.get (d : PyDict) (key : String) : Option PyJson :=
  d.members.lookup (py key)

local instance lawfulBEqMemberName : LawfulBEq PyStr := inferInstance

/-- `members[key] = value`: in place, or at the end. -/
def setMember (key : PyStr) (value : PyJson) (ms : List (PyStr × PyJson)) :
    List (PyStr × PyJson) :=
  if key ∈ ms.map Prod.fst then
    ms.map fun m => if m.1 = key then (key, value) else m
  else ms ++ [(key, value)]

theorem mem_setMember {key : PyStr} {value : PyJson}
    {ms : List (PyStr × PyJson)} {m : PyStr × PyJson}
    (h : m ∈ setMember key value ms) :
    m = (key, value) ∨ m ∈ ms ∧ m.1 ≠ key := by
  unfold setMember at h
  split at h
  · obtain ⟨old, hold, rfl⟩ := List.mem_map.mp h
    split
    · exact .inl rfl
    · next hne => exact .inr ⟨hold, hne⟩
  · next hnew =>
    obtain hold | hlast := List.mem_append.mp h
    · refine .inr ⟨hold, ?_⟩
      rintro rfl
      exact hnew (List.mem_map_of_mem hold)
    · exact .inl (List.mem_singleton.mp hlast)

theorem keys_setMember (key : PyStr) (value : PyJson)
    (ms : List (PyStr × PyJson)) :
    (setMember key value ms).map Prod.fst =
      if key ∈ ms.map Prod.fst then ms.map Prod.fst
      else ms.map Prod.fst ++ [key] := by
  unfold setMember
  split
  · rw [List.map_map]
    refine List.map_congr_left fun m _ => ?_
    by_cases hm : m.1 = key <;> simp [hm]
  · rw [List.map_append, List.map_singleton]

theorem distinct_setMember {key : PyStr} {value : PyJson}
    {ms : List (PyStr × PyJson)} (hms : (Json.obj ms).DistinctKeys)
    (hvalue : value.DistinctKeys) :
    (Json.obj (setMember key value ms)).DistinctKeys := by
  simp only [Json.distinctKeys_obj] at hms ⊢
  refine ⟨?_, fun m hm => ?_⟩
  · rw [keys_setMember]
    split
    · exact hms.1
    · next hnew =>
      exact List.nodup_append.mpr ⟨hms.1, List.nodup_singleton _, fun k hk l hl => by
        rw [List.mem_singleton.mp hl]
        rintro rfl
        exact hnew hk⟩
  · obtain rfl | ⟨hold, -⟩ := mem_setMember hm
    · exact hvalue
    · exact hms.2 m hold

def PyDict.set (d : PyDict) (key : String) (value : PyJson)
    (hvalue : value.DistinctKeys) : PyDict where
  members := setMember (py key) value d.members
  distinct := distinct_setMember d.distinct hvalue

/-- What `for value in v` runs over. -/
def iterate : PyJson → Except PyError (List PyJson)
  | .arr items => .ok items
  | .str s => .ok (s.map fun c => .str [c])
  | .obj members => .ok (members.map fun m => .str m.1)
  | _ => .error .typeError

/-! ## Rules -/

inductive PatchAction where
  | approve
  | deny
  | defer
  deriving DecidableEq, Repr

inductive PatchDefaultAction where
  | approve
  | deny
  deriving DecidableEq, Repr

/-- `schemas.PatchMatch`; an absent facet is `none`. -/
structure PatchMatch where
  classifications : Option (List String) := none
  severities : Option (List String) := none
  kbIDs : Option (List String) := none
  deriving DecidableEq, Repr

structure PatchRule where
  key : String
  action : PatchAction
  match_ : PatchMatch
  deferDays : Option Nat := none
  deriving DecidableEq, Repr

/-- A time and its offset from UTC, as `_parse_dt` reads one. -/
structure ReleaseTime where
  wall : Int
  offset : Int
  deriving DecidableEq, Repr

/-- A row of `missing` in a scan, by the fields the gate reads. -/
structure ScannedUpdate where
  kbID : Option String := none
  updateID : Option String := none
  classification : Option String := none
  severity : Option String := none
  lastDeploymentChange : Option ReleaseTime := none
  deriving DecidableEq, Repr

inductive Verdict where
  | approve
  | deny
  | defer
  deriving DecidableEq, Repr

structure UpdateDecision where
  decision : Verdict
  reason : String
  matchedRuleKey : Option String
  deriving DecidableEq, Repr

section Rules

variable (ops : PyTextOps)

/-- `_facet_matches` -/
def facetMatches : Option (List String) → Option String → Bool
  | none, _ => true
  | some _, none => false
  | some values, some actual =>
    values.any fun value =>
      decide (ops.casefold (py (strip value)) = ops.casefold (py (strip actual)))

/-- `_kb_matches` -/
def kbMatches : Option (List String) → Option String → Bool
  | none, _ => true
  | some _, none => false
  | some kbIDs, some actual =>
    decide (actual ≠ "")
      && decide (ops.upper (py (strip actual)) ∈ kbIDs.map py)

/-- `_rule_matches` -/
def ruleMatches (rule : PatchRule) (update : ScannedUpdate) : Bool :=
  facetMatches ops rule.match_.classifications update.classification
    && facetMatches ops rule.match_.severities update.severity
    && kbMatches ops rule.match_.kbIDs update.kbID

/-- `_defer_satisfied`; the sum may be past the last year there is. -/
def deferSatisfied (update : ScannedUpdate) (deferDays : Nat) (now : Int) :
    Except PyError Bool :=
  match update.lastDeploymentChange with
  | none => .ok false
  | some released =>
    if InRange (released.wall + deferDays * dayMicros) then
      .ok (decide (released.wall + deferDays * dayMicros - released.offset ≤ now))
    else .error .overflowError

/-- What one rule decides on an update it matches. -/
def PatchRule.decide (rule : PatchRule) (update : ScannedUpdate) (now : Int) :
    Except PyError UpdateDecision :=
  match rule.action with
  | .deny => .ok ⟨.deny, "rule:" ++ rule.key, some rule.key⟩
  | .approve => .ok ⟨.approve, "rule:" ++ rule.key, some rule.key⟩
  | .defer => do
    if ← deferSatisfied update (rule.deferDays.getD 0) now then
      .ok ⟨.approve, "rule:" ++ rule.key ++ ":deferral_elapsed", some rule.key⟩
    else .ok ⟨.defer, "rule:" ++ rule.key ++ ":deferred", some rule.key⟩

/-- `evaluate_update`: the first rule that matches decides. -/
def evaluateUpdate (rules : List PatchRule) (defaultAction : PatchDefaultAction)
    (update : ScannedUpdate) (now : Int) : Except PyError UpdateDecision :=
  match rules.find? (ruleMatches ops · update) with
  | some rule => rule.decide update now
  | none =>
    .ok ⟨if defaultAction = .approve then .approve else .deny, "default", none⟩

end Rules

/-! ## The policy of an agent -/

structure PatchApprovalPolicy where
  id : String
  scope : MonitoringScope
  scopeID : Option String
  enabled : Bool
  createdAt : Int
  deriving DecidableEq, Repr

/-- A row of `patch_approval_policy_revisions`. -/
structure PolicyRevision extends PatchRevision where
  policyID : String
  version : Nat
  rules : List PatchRule
  defaultAction : PatchDefaultAction
  deriving DecidableEq, Repr

/-- An agent, by the columns dispatching reads. -/
structure ManagedAgent extends AgentPlace where
  trustState : AgentTrustState
  commandEnvelopeVersions : List String
  supportedCapabilities : List String
  deriving DecidableEq, Repr

/-- The tables `evaluate_patch_install` reads: the missing updates of each
agent's latest scan, and the user its latest heartbeat names. -/
structure PatchTables extends WindowTables where
  policies : List PatchApprovalPolicy
  revisions : List PolicyRevision
  missing : String → List ScannedUpdate
  heartbeats : String → Option (Option String)

/-- `_SCOPE_PRECEDENCE` -/
def scopePrecedence : MonitoringScope → Int
  | .global => 0
  | .client => 1
  | .site => 2
  | .agent => 3

/-- `_applicable_policies` -/
def applicablePolicies (tables : PatchTables) (agent : AgentPlace) :
    List PatchApprovalPolicy :=
  tables.policies.filter fun policy => policy.enabled &&
    match policy.scope with
    | .global => true
    | .client =>
      decide (tables.directory.siteClient agent.siteID ≠ none)
        && decide (policy.scopeID = tables.directory.siteClient agent.siteID)
    | .site => decide (policy.scopeID = some agent.siteID)
    | .agent => decide (policy.scopeID = some agent.id)

/-- `current_revision` -/
def currentRevision (tables : PatchTables) (policyID : String) :
    Option PolicyRevision :=
  (tables.revisions.filter fun r => decide (r.policyID = policyID)).argmax
    (·.version)

/-- `resolve_effective_patch_policy` -/
def resolveEffectivePatchPolicy (tables : PatchTables) (agent : AgentPlace) :
    Option (PatchApprovalPolicy × PolicyRevision) := do
  let winner ← (applicablePolicies tables agent).argmin fun p =>
    (toLex (-scopePrecedence p.scope, toLex (p.createdAt, p.id)) :
      Lex (Int × Lex (Int × String)))
  let revision ← currentRevision tables winner.id
  pure (winner, revision)

/-! ## The install gate -/

def patchRebootCapability : String := "patch-reboot-v1"

section Gate

variable (ops : PyTextOps)

/-- The key of an update in `by_kb`. -/
def kbKey (update : ScannedUpdate) : Option PyStr :=
  (update.kbID.filter (· ≠ "")).map fun kb => ops.upper (py kb)

/-- The key of an update in `by_id`. -/
def idKey (update : ScannedUpdate) : Option PyStr :=
  (update.updateID.filter (· ≠ "")).map fun id => ops.lower (py id)

/-- `by_kb.get(key)` and `by_id.get(key)`: of several rows with one key, the
dictionary keeps the last. -/
def lookUp (keyOf : ScannedUpdate → Option PyStr)
    (missing : List ScannedUpdate) (key : PyStr) : Option ScannedUpdate :=
  missing.reverse.find? fun update => decide (keyOf update = some key)

/-- `str(value)` -/
def pyText : PyJson → PyStr
  | .str s => s
  | value => ops.str value

/-- `sorted(set(values))` -/
def sortedSet (values : List PyStr) : List PyStr :=
  values.dedup.insertionSort pyLe

/-- What the rules make of a request. -/
structure Selection where
  installAll : Bool
  requested : Nat
  verdicts : List Verdict
  approvedKBs : List PyStr
  approvedIDs : List PyStr
  blocked : List PyStr
  payload : PyDict

/-- The payload an approved subset is installed by. -/
def narrowedPayload (kbs ids : List PyStr) : PyDict where
  members := [(py "install_all", .bool false), (py "kb_ids", .arr (kbs.map .str)),
    (py "update_ids", .arr (ids.map .str))]
  distinct := by
    have hkeys : [py "install_all", py "kb_ids", py "update_ids"].Nodup := by
      decide
    simpa [Json.distinctKeys_obj] using hkeys

section Judge

variable (revision : PolicyRevision) (missing : List ScannedUpdate) (now : Int)

/-- `classify`, by its verdict. -/
def classify (update : ScannedUpdate) : Except PyError Verdict :=
  (evaluateUpdate ops revision.rules revision.defaultAction update now).map
    (·.decision)

/-- One requested identifier: denied when the scan has no such update. -/
def judge (keyOf : ScannedUpdate → Option PyStr) (key : PyStr) :
    Except PyError Verdict :=
  match lookUp keyOf missing key with
  | none => .ok .deny
  | some update => classify ops revision now update

/-- `install_all`: every scanned update is classified. -/
def selectAll : Except PyError Selection := do
  let verdicts ← missing.mapM (classify ops revision now)
  let approved := (missing.zip verdicts).filterMap fun row =>
    if row.2 = .approve then some row.1 else none
  let kbs := approved.filterMap (kbKey ops)
  let ids := (approved.filter fun u => (kbKey ops u).isNone).filterMap (idKey ops)
  pure {
    installAll := true
    requested := missing.length
    verdicts := verdicts
    approvedKBs := kbs
    approvedIDs := ids
    blocked := []
    payload := narrowedPayload (sortedSet kbs) (sortedSet ids) }

/-- The identifiers under one key of the payload, in the case they are looked
up in. -/
def requestedUnder (payload : PyDict) (key : String) (case : PyStr → PyStr) :
    Except PyError (List PyStr) :=
  (iterate ((payload.get key).getD (.arr []))).map fun values =>
    values.map fun value => case (pyText ops value)

/-- An explicit selection: every identifier named is judged. -/
def selectNamed (payload : PyDict) : Except PyError Selection := do
  let kbs ← requestedUnder ops payload "kb_ids" ops.upper
  let ids ← requestedUnder ops payload "update_ids" ops.lower
  let kbVerdicts ← kbs.mapM (judge ops revision missing now (kbKey ops))
  let idVerdicts ← ids.mapM (judge ops revision missing now (idKey ops))
  let verdicts := kbVerdicts ++ idVerdicts
  pure {
    installAll := false
    requested := kbs.length + ids.length
    verdicts := verdicts
    approvedKBs := []
    approvedIDs := []
    blocked := ((kbs ++ ids).zip verdicts).filterMap fun row =>
      if row.2 = .approve then none else some row.1
    payload := payload }

/-- `payload.get("install_all") is True` -/
def asksForAll (payload : PyDict) : Bool :=
  match payload.get "install_all" with
  | some (.bool true) => true
  | _ => false

def select (payload : PyDict) : Except PyError Selection :=
  if asksForAll payload then selectAll ops revision missing now
  else selectNamed ops revision missing now payload

end Judge

def RebootPolicy.value : RebootPolicy → String
  | .never => "never"
  | .ifRequired => "if_required"
  | .forced => "forced"

/-- `format_command_time` -/
def timeText (padYear : Bool) (t : Int) : PyStr :=
  (formatCommandTime padYear (stampOf t)).map fun n => ofChar (Char.ofNat n)

def pyOptional : Option PyStr → PyJson
  | none => .null
  | some s => .str s

/-- The members of the signed `reboot` block. -/
def rebootMembers (padYear : Bool) (evidence : RebootEvidence) :
    List (PyStr × PyJson) :=
  [(py "policy", .str (py (RebootPolicy.value evidence.policy))),
    (py "delay_seconds", .num (.int evidence.delaySeconds)),
    (py "requires_no_user", .bool evidence.requiresNoUser),
    (py "user_present_at_dispatch", .bool evidence.userPresentAtDispatch),
    (py "maintenance_window_id",
      pyOptional (evidence.maintenanceWindowID.map py)),
    (py "maintenance_window_ends_at",
      pyOptional (evidence.maintenanceWindowEndsAt.map (timeText padYear)))]

theorem distinct_rebootMembers (padYear : Bool) (evidence : RebootEvidence) :
    (Json.obj (rebootMembers padYear evidence)).DistinctKeys := by
  have hkeys : [py "policy", py "delay_seconds", py "requires_no_user",
      py "user_present_at_dispatch", py "maintenance_window_id",
      py "maintenance_window_ends_at"].Nodup := by decide
  have hoptional : ∀ s, (pyOptional s).DistinctKeys := fun s => by
    cases s <;> simp [pyOptional]
  refine Json.distinctKeys_obj.mpr ⟨hkeys, ?_⟩
  simp [rebootMembers, hoptional]

/-- `max_attempts` and `reboot`, set in the payload of an allowed
installation where the agent understands them. -/
def instruct (padYear : Bool) (decision : PatchDecision) (payload : PyDict) :
    PyDict :=
  match decision.maxAttempts with
  | none => payload
  | some attempts =>
    let counted := payload.set "max_attempts" (.num (.int attempts)) (by simp)
    match decision.reboot with
    | none => counted
    | some evidence =>
      counted.set "reboot" (.obj (rebootMembers padYear evidence))
        (distinct_rebootMembers padYear evidence)

/-- The decision of `evaluate_patch_install`. -/
structure InstallDecision where
  outcome : PatchOutcome
  payload : PyDict
  gatedDetail : List (String × AuditValue)
  rebootDetail : Option (List (String × AuditValue))
  blocked : List PyStr
  policyID : String

def PatchOutcome.value : PatchOutcome → String
  | .maintenanceWindowRequired => "maintenance_window_required"
  | .noApprovedUpdates => "no_approved_updates"
  | .denied => "denied"
  | .allowed => "allowed"

def gatedDetail (policyID : String) (revision : PolicyRevision)
    (selection : Selection) (outcome : PatchOutcome) (windowOpen : Bool) :
    List (String × AuditValue) :=
  [("policy_id", .str policyID), ("outcome", .str (PatchOutcome.value outcome)),
    ("install_all", .bool selection.installAll),
    ("requested", .int selection.requested),
    ("approved", .int (selection.verdicts.count .approve)),
    ("denied", .int (selection.verdicts.count .deny)),
    ("deferred", .int (selection.verdicts.count .defer)),
    ("window_required", .bool revision.requireMaintenanceWindow),
    ("window_present", .bool (!revision.requireMaintenanceWindow || windowOpen))]

def rebootDetail (policyID : String) (revision : PolicyRevision)
    (windowOpen : Bool) (evidence : RebootEvidence) :
    List (String × AuditValue) :=
  [("policy_id", .str policyID),
    ("reboot_policy", .str (RebootPolicy.value evidence.policy)),
    ("delay_seconds", .int evidence.delaySeconds),
    ("requires_no_user", .bool evidence.requiresNoUser),
    ("window_present", .bool (revision.requireMaintenanceWindow && windowOpen)),
    ("user_present", .bool evidence.userPresentAtDispatch)]

/-- What `Server.evaluatePatchInstall` needs of a selection. -/
def Selection.summary (selection : Selection) : PatchSelection where
  installAll := selection.installAll
  approved := (selection.approvedKBs ++ selection.approvedIDs).map textOf
  blocked := selection.blocked.map textOf

variable (padYear : Bool)

/-- `evaluate_patch_install`, once the policy is resolved. -/
def evaluateUnder (tables : PatchTables) (agent : ManagedAgent)
    (policyID : String) (revision : PolicyRevision) (payload : PyDict)
    (now : Int) : Except PyError InstallDecision := do
  let selection ← select ops revision (tables.missing agent.id) now payload
  let decision := Server.evaluatePatchInstall tables.toWindowTables
    agent.toAgentPlace (patchRebootCapability ∈ agent.supportedCapabilities)
    (tables.heartbeats agent.id) revision.toPatchRevision selection.summary now
  let windowOpen := !(tables.active agent.toAgentPlace now).isEmpty
  pure {
    outcome := decision.outcome
    payload := instruct padYear decision selection.payload
    gatedDetail :=
      gatedDetail policyID revision selection decision.outcome windowOpen
    rebootDetail := decision.reboot.map (rebootDetail policyID revision windowOpen)
    blocked := selection.blocked
    policyID := policyID }

/-- `evaluate_patch_install`: nothing is decided where no policy applies. -/
def evaluatePatchInstall (tables : PatchTables) (agent : ManagedAgent)
    (payload : PyDict) (now : Int) : Except PyError (Option InstallDecision) :=
  match resolveEffectivePatchPolicy tables agent.toAgentPlace with
  | none => .ok none
  | some (policy, revision) =>
    (evaluateUnder ops padYear tables agent policy.id revision payload now).map
      some

end Gate

end NodeLink.Server.PatchPolicies
