import NodeLink.Server.Maintenance

/-!
# Operators and what they may do

`core/tenant_scope.py` and `core/script_authorization.py`, with the columns of
`models.py` they read. A tenant is a client; an agent belongs to the client of
its site.
-/

namespace NodeLink.Server

inductive CommandKind where
  | powershell
  | shell
  | collectInventory
  | scanUpdates
  | installUpdates
  | fileUpload
  | fileDownload
  | registryRead
  | registryWrite
  | registryDelete
  | remediationRollback
  | reboot
  | shutdown
  | cancelPowerAction
  | queryEventLog
  | scanPackages
  | installPackages
  | deploySoftware
  | listServices
  | controlService
  | listProcesses
  | terminateProcess
  | agentSelfUpdate
  | agentUpdateRollback
  deriving DecidableEq, Repr

def CommandKind.value : CommandKind → String
  | .powershell => "powershell"
  | .shell => "shell"
  | .collectInventory => "collect_inventory"
  | .scanUpdates => "scan_updates"
  | .installUpdates => "install_updates"
  | .fileUpload => "file_upload"
  | .fileDownload => "file_download"
  | .registryRead => "registry_read"
  | .registryWrite => "registry_write"
  | .registryDelete => "registry_delete"
  | .remediationRollback => "remediation_rollback"
  | .reboot => "reboot"
  | .shutdown => "shutdown"
  | .cancelPowerAction => "cancel_power_action"
  | .queryEventLog => "query_event_log"
  | .scanPackages => "scan_packages"
  | .installPackages => "install_packages"
  | .deploySoftware => "deploy_software"
  | .listServices => "list_services"
  | .controlService => "control_service"
  | .listProcesses => "list_processes"
  | .terminateProcess => "terminate_process"
  | .agentSelfUpdate => "agent_self_update"
  | .agentUpdateRollback => "agent_update_rollback"

inductive OperatorRole where
  | readonly
  | operator
  | admin
  deriving DecidableEq, Repr

inductive ClientRole where
  | clientReadonly
  | clientOperator
  | clientAdmin
  deriving DecidableEq, Repr

/-- `_CLIENT_ROLE_RANK` -/
def ClientRole.rank : ClientRole → Nat
  | .clientReadonly => 0
  | .clientOperator => 1
  | .clientAdmin => 2

def clientRolePermits (role minimum : ClientRole) : Bool :=
  decide (minimum.rank ≤ role.rank)

inductive ScriptExecutionScope where
  | global
  | site
  | agent
  deriving DecidableEq, Repr

structure Operator where
  id : String
  email : String
  role : OperatorRole
  disabled : Bool
  isPlatformAdmin : Bool
  scriptExecutionScope : Option ScriptExecutionScope
  scriptExecutionScopeID : Option String
  deriving DecidableEq, Repr

/-- The tables authority is read from. Operators are found by their key. -/
structure Authority where
  operators : String → Option Operator
  memberships : String → String → Option ClientRole
  directory : Directory
  operators_id : ∀ id operator, operators id = some operator →
    operator.id = id

/-! ## Tenancy -/

/-- `agent_client_id` -/
def Authority.agentClientID (auth : Authority) (agent : AgentPlace) :
    Option String := auth.directory.siteClient agent.siteID

/-- `resolve_membership` for an agent's or a record's client. -/
def Authority.membership (auth : Authority) (operator : Operator)
    (clientID : Option String) : Option ClientRole :=
  clientID.bind (auth.memberships operator.id)

/-- `is_client_visible` -/
def Authority.isClientVisible (auth : Authority) (operator : Operator)
    (clientID : Option String) : Bool :=
  operator.isPlatformAdmin || (auth.membership operator clientID).isSome

/-- `assert_client_visible`: a client that is not known is visible to no
one. -/
def Authority.assertClientVisible (auth : Authority) (operator : Operator)
    (clientID : Option String) : Bool :=
  clientID.isSome && auth.isClientVisible operator clientID

inductive TenantVerdict where
  | allowed
  | notVisible
  | roleInsufficient
  deriving DecidableEq, Repr

/-- `assert_client_action`. A platform admin passes. -/
def Authority.clientAction (auth : Authority) (operator : Operator)
    (clientID : Option String) (minimum : ClientRole) : TenantVerdict :=
  if operator.isPlatformAdmin then .allowed
  else
    match auth.membership operator clientID with
    | none => .notVisible
    | some role =>
      if clientRolePermits role minimum then .allowed else .roleInsufficient

/-! ## Command authorization -/

structure CommandAuthorizationDecision where
  allowed : Bool
  policy : String
  reason : String
  permissionScope : Option ScriptExecutionScope := none
  permissionScopeID : Option String := none
  deriving DecidableEq, Repr

/-- The kinds any operator but a read-only one may send. -/
def CommandKind.typedOperation : CommandKind → Bool
  | .collectInventory | .scanUpdates | .installUpdates | .scanPackages
  | .listServices | .listProcesses => true
  | _ => false

/-- The kinds that need the administrator role. -/
def CommandKind.administrative : CommandKind → Bool
  | .fileUpload | .fileDownload | .registryRead | .registryWrite
  | .registryDelete | .remediationRollback | .reboot | .shutdown
  | .cancelPowerAction | .queryEventLog | .installPackages | .deploySoftware
  | .controlService | .terminateProcess | .agentSelfUpdate
  | .agentUpdateRollback => true
  | _ => false

/-- The policy an administrative kind is refused or allowed under. -/
def CommandKind.policy : CommandKind → String
  | .agentSelfUpdate | .agentUpdateRollback => "agent_self_update"
  | .controlService | .terminateProcess => "service_process"
  | .reboot | .shutdown | .cancelPowerAction => "power_operation"
  | .queryEventLog => "event_log_query"
  | .installPackages => "package_management"
  | .deploySoftware => "software_deployment"
  | _ => "privileged_remediation"

/-- The operator's grant takes in the agent. -/
def scriptScopeMatches (operator : Operator) (agent : AgentPlace) :
    ScriptExecutionScope → Bool
  | .global => true
  | .site => decide (operator.scriptExecutionScopeID = some agent.siteID)
  | .agent => decide (operator.scriptExecutionScopeID = some agent.id)

/-- `authorize_command` -/
def authorizeCommand (operator : Operator) (agent : AgentPlace)
    (kind : CommandKind) : CommandAuthorizationDecision :=
  if operator.role = .readonly then
    ⟨false, "operator_role", "operator_role_insufficient", none, none⟩
  else if kind.typedOperation then
    ⟨true, "typed_operation", "typed_operation_role_allowed", none, none⟩
  else if kind.administrative then
    if operator.role = .admin then
      ⟨true, kind.policy, "administrator_role_allowed", none, none⟩
    else ⟨false, kind.policy, "administrator_role_required", none, none⟩
  else
    match operator.scriptExecutionScope with
    | none => ⟨false, "script_permission", "script_permission_missing", none, none⟩
    | some scope =>
      if scriptScopeMatches operator agent scope then
        ⟨true, "script_permission", "script_permission_scope_allowed",
          some scope, operator.scriptExecutionScopeID⟩
      else
        ⟨false, "script_permission", "script_permission_scope_mismatch",
          some scope, operator.scriptExecutionScopeID⟩

end NodeLink.Server
