import NodeLink.Lib.Utf8
import NodeLink.Lib.Base64
import NodeLink.Lib.Json
import NodeLink.Lib.JsonText
import NodeLink.Lib.JsonRoundTrip
import NodeLink.Lib.CivilTime
import NodeLink.Lib.PyText
import NodeLink.Lib.Checks
import NodeLink.Lib.GoUrl
import NodeLink.Lib.StrMap
import NodeLink.Lib.Prog
import NodeLink.Agent.Verify
import NodeLink.Agent.SeenStore
import NodeLink.Agent.Runner
import NodeLink.Agent.World
import NodeLink.Agent.Version
import NodeLink.Agent.SelfUpdate
import NodeLink.Agent.UpdateWorld
import NodeLink.Proofs.VersionOrder
import NodeLink.Proofs.UpdateAttempts
import NodeLink.Server.CommandEnvelope
import NodeLink.Proofs.WireText
import NodeLink.Proofs.CanonicalAgreement
import NodeLink.Proofs.SignedFields
import NodeLink.Proofs.SignedBytes
import NodeLink.Proofs.JournalGuard
import NodeLink.Proofs.AgentRefinement
import NodeLink.Proofs.AtMostOnce
import NodeLink.Proofs.JournalTruth
import NodeLink.Server.CommandTable
import NodeLink.Server.Delivery
import NodeLink.Server.Relays
import NodeLink.Proofs.RelayReplay
import NodeLink.Proofs.RecordedResults
import NodeLink.Lib.HashChain
import NodeLink.Lib.JsonUnique
import NodeLink.Server.Audit
import NodeLink.Proofs.AuditChain
import NodeLink.Proofs.AuditCommitment
import NodeLink.Server.Alerts
import NodeLink.Agent.Power
import NodeLink.Proofs.AlertOrder
import NodeLink.Lib.RowTxn
import NodeLink.Lib.Sessions
import NodeLink.Proofs.PowerWindows
import NodeLink.Server.Approvals
import NodeLink.Server.Overrides
import NodeLink.Server.AuthorizationRuns
import NodeLink.Proofs.AuthorizationWrites
import NodeLink.Proofs.TerminalRecords
import NodeLink.Proofs.TwoPerson
import NodeLink.Proofs.LateHeartbeats
import NodeLink.Proofs.ResultStability
import NodeLink.Server.AnsweredCheckIns
import NodeLink.Proofs.OutboxDrains
import NodeLink.Proofs.CredentialRotation
import NodeLink.Lib.Calendar
import NodeLink.Lib.Loops
import NodeLink.Server.PatchPolicies
import NodeLink.Server.Cron
import NodeLink.Server.Scheduler
import NodeLink.Proofs.ScheduledSlots
import NodeLink.Proofs.SchedulerIsolation
import NodeLink.Agent.UpdateInstall
import NodeLink.Proofs.PatchApproval
import NodeLink.Server.EvidenceVault
import NodeLink.Proofs.EvidenceHolds
import NodeLink.Server.RoutingManifest
import NodeLink.Agent.RoutingManifest
import NodeLink.Lib.Numbered
import NodeLink.Server.ShellRelay
import NodeLink.Agent.ShellInput
import NodeLink.Proofs.ShellStream
import NodeLink.Server.Inventory
import NodeLink.Agent.Inventory
import NodeLink.Proofs.InventoryRefresh
import NodeLink.Server.AlertActions
import NodeLink.Proofs.AlertBook
import NodeLink.Lib.Hex
import NodeLink.Lib.Merkle
import NodeLink.Server.Anchor
import NodeLink.Proofs.AuditAnchors
import NodeLink.Proofs.ApprovalBar
import NodeLink.Agent.RelayClient
import NodeLink.Proofs.RelayFailover
import NodeLink.Lib.Double
import NodeLink.Lib.PyValue
import NodeLink.Server.Notifications
import NodeLink.Proofs.NotificationLeases
import NodeLink.Server.Monitoring
import NodeLink.Agent.MonitoringStore
import NodeLink.Proofs.MonitoringRecords
import NodeLink.Proofs.MonitoringOutbox
import NodeLink.Server.MonitoringEvaluators
import NodeLink.Proofs.ServerOwnedChecks
import NodeLink.Lib.Struct
import NodeLink.Lib.Zip
import NodeLink.Lib.ZipRoundTrip
import NodeLink.Lib.PyLoads
import NodeLink.Server.EvidencePackages
import NodeLink.Proofs.EvidencePackages
import NodeLink.Server.OperatorSessions
import NodeLink.Proofs.SessionEndings
import NodeLink.Server.OperatorAdministration
import NodeLink.Server.UpdateAccounts
import NodeLink.Proofs.LastAdministrators
import NodeLink.Proofs.TokenAdmissions
import NodeLink.Proofs.AnchorPublications
import NodeLink.Proofs.RolloutControl
import NodeLink.Proofs.UpdateAccounting
import NodeLink.Server.Cbor
import NodeLink.Server.WebAuthn
import NodeLink.Server.MfaCeremonies
import NodeLink.Proofs.ChallengeUses
import NodeLink.Proofs.SignatureCounters
import NodeLink.Server.EmailCodes
import NodeLink.Proofs.EmailCodeBounds
import NodeLink.Proofs.MfaResets
import NodeLink.Agent.ScriptParameters
import NodeLink.Lib.ShellText
import NodeLink.Server.ScriptParameters
import NodeLink.Agent.OutputCapture
import NodeLink.Lib.Utf8Repair
import NodeLink.Proofs.CapturedOutput
import NodeLink.Proofs.ScriptBindings
import NodeLink.Proofs.ManifestFreshness
import NodeLink.Agent.CheckHysteresis
import NodeLink.Lib.Debounce
import NodeLink.Proofs.CheckHysteresis
import NodeLink.Agent.Software
import NodeLink.Proofs.SoftwareOrder
import NodeLink.Lib.Newest
import NodeLink.Server.ResultRetention
import NodeLink.Proofs.ResultPruning
import NodeLink.Proofs.SupersededBearers
import NodeLink.Lib.Readers
import NodeLink.Proofs.StrictCbor
import NodeLink.Lib.LocalClock
import NodeLink.Proofs.NextRuns
import NodeLink.Proofs.WindowOccurrences
import NodeLink.Lib.KeyedDiff
import NodeLink.Server.InventoryDiff
import NodeLink.Proofs.InventoryDiffs
import NodeLink.Proofs.RouteCooldown
import NodeLink.Lib.Overlays
import NodeLink.Proofs.EffectivePolicy
import NodeLink.Lib.Choice
import NodeLink.Proofs.IdleSessions
import NodeLink.Proofs.PayloadRefusals
import NodeLink.Proofs.UpdateTargets
import NodeLink.Agent.InstallRetries
import NodeLink.Proofs.InstallRetries
import NodeLink.Lib.ZipSpelling
import NodeLink.Proofs.ArchiveSpelling
import NodeLink.Agent.UpdateScan
import NodeLink.Lib.JsonSize
import NodeLink.Lib.ScaleDown
import NodeLink.Server.InventorySchemas
import NodeLink.Proofs.CollectedSoftware
import NodeLink.Proofs.CollectedSections
import NodeLink.Lib.SlidingWindow
import NodeLink.Server.RateLimit
import NodeLink.Proofs.AttemptWindows
import NodeLink.Proofs.SupportChats
import NodeLink.Proofs.ChatHistories
import NodeLink.Lib.Variables
import NodeLink.Server.Assistant
import NodeLink.Proofs.AssistantSteps
import NodeLink.Proofs.AssistantPrograms
import NodeLink.Proofs.AssistantAdmission
import NodeLink.Proofs.AssistantRuns
