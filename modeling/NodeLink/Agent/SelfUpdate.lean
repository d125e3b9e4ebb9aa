import NodeLink.Agent.Version
import NodeLink.Lib.Checks
import NodeLink.Lib.GoUrl
import NodeLink.Lib.Prog
import NodeLink.Lib.Utf8

/-!
# Self-update and rollback

`internal/selfupdate`: the commands that replace the agent's executable, and
the start-up recovery that decides what became of an attempt. Every touch of
the file system is an action of its program. The journal and the record of
the previous build are files read and written whole; payloads are taken as
they decode, `none` for one that does not.
-/

namespace NodeLink.Agent.SelfUpdate

open Lib

/-! ## Files -/

/-- A file of the installation. -/
inductive BuildFile where
  | executable
  | restoreTmp
  | displaced (unixNano : Int)
  | staged (n : Nat)
  | backup (name : String)
  deriving DecidableEq, Repr

def BuildFile.IsBackup : BuildFile → Prop
  | .backup _ => True
  | _ => False

inductive JournalState where
  | staged
  | installed
  | committed
  | rolledBack
  | failed
  | other (text : String)
  deriving DecidableEq, Repr

/-- `Journal`. An empty path is `none`, a deadline that does not parse too. -/
structure UpdateJournal where
  state : JournalState
  releaseID : String := ""
  commandID : String := ""
  fromVersion : String := ""
  toVersion : String := ""
  exePath : String := ""
  backupPath : Option BuildFile := none
  stagedPath : Option BuildFile := none
  artifactSHA256 : String := ""
  backupSHA256 : String := ""
  startedAt : Int := 0
  healthDeadline : Option Int := none
  attempts : Nat := 0
  reason : String := ""
  deriving DecidableEq, Repr

/-- `previousBuild` -/
structure PreviousBuild where
  version : String
  path : Option BuildFile
  sha256 : String
  deriving DecidableEq, Repr

/-- What reading a file gives: an error, no file, or its content. -/
inductive Loaded (α : Type) where
  | failed
  | absent
  | found (a : α)
  deriving DecidableEq, Repr

/-- How a rename or a change of mode ends. -/
inductive FileEnd where
  | done
  | missing
  | failed
  deriving DecidableEq, Repr

/-- How a download ends, with the file it leaves. -/
inductive DownloadEnd where
  | failed (stagedPath : Option BuildFile)
  | done (stagedPath : BuildFile) (size : Int) (digest : String)
  deriving DecidableEq, Repr

/-! ## Commands -/

structure UpdatePayload where
  releaseID : String
  version : String
  channel : String
  platform : String
  artifactURL : String
  artifactSHA256 : String
  sizeBytes : Int
  minSupportedVersion : String
  signerThumbprint : String := ""
  healthTimeoutSeconds : Int := 0
  deriving DecidableEq, Repr

structure RollbackPayload where
  reason : String
  confirm : Bool
  expectedCurrentVersion : String := ""
  deriving DecidableEq, Repr

inductive UpdateCommand where
  | selfUpdate (commandID : String) (payload : Option UpdatePayload)
  | rollback (commandID : String) (payload : Option RollbackPayload)
  deriving DecidableEq, Repr

/-- `Options`; the update root is a function of the executable's path. -/
structure UpdateOptions where
  currentVersion : String
  exePath : String
  platform : String
  channel : String
  deriving DecidableEq, Repr

inductive UpdateStatus where
  | invalid
  | alreadyCurrent
  | downgradeRefused
  | channelMismatch
  | platformMismatch
  | updateInProgress
  | downloadFailed
  | tampered
  | signatureMismatch
  | stageFailed
  | installFailed
  | restartPending
  | restartFailed
  | succeeded
  | rolledBack
  | failed
  | noPreviousBuild
  deriving DecidableEq, Repr

/-- `Result`, without the message for people; a failed command exits 1. -/
structure UpdateResult where
  status : UpdateStatus
  reason : String
  exitCode : Int := 1
  releaseID : String := ""
  fromVersion : String := ""
  toVersion : String := ""
  artifactSHA256 : String := ""
  downloadedBytes : Int := 0
  restartRequested : Bool := false
  healthDeadline : Option Int := none
  deriving DecidableEq, Repr

/-- `fail`, over what is filled in so far. -/
def UpdateResult.fail (res : UpdateResult) (status : UpdateStatus)
    (reason : String) : UpdateResult :=
  { res with status := status, reason := reason, exitCode := 1 }

def UpdateResult.succeed (res : UpdateResult) (status : UpdateStatus)
    (reason : String) : UpdateResult :=
  { res with status := status, reason := reason, exitCode := 0 }

def emptyResult : UpdateResult := ⟨.invalid, "", 1, "", "", "", "", 0, false, none⟩

/-- `Outcome`, which is also what `ReportSelfUpdate` sends. -/
structure UpdateOutcome where
  releaseID : String
  commandID : String
  fromVersion : String
  toVersion : String
  observedVersion : String
  status : UpdateStatus
  reason : String
  attempts : Nat
  deriving DecidableEq, Repr

def outcomeOf (journal : UpdateJournal) (opts : UpdateOptions)
    (status : UpdateStatus) : UpdateOutcome where
  releaseID := journal.releaseID
  commandID := journal.commandID
  fromVersion := journal.fromVersion
  toVersion := journal.toVersion
  observedVersion := opts.currentVersion
  status := status
  reason := journal.reason
  attempts := journal.attempts

/-! ## Actions -/

/-- What the package does outside its own memory. `starts` and `takesUp` are
the points where a process starts and where it takes a command up. -/
inductive UpdateOp where
  | starts
  | takesUp (opts : UpdateOptions) (cmd : UpdateCommand)
  | now
  | loadJournal
  | saveJournal (journal : UpdateJournal)
  | clearJournal
  | loadPrevious
  | savePrevious (value : PreviousBuild)
  | makeStaging
  | download (url : String) (sizeBytes : Int)
  | verifyAuthenticode (path : BuildFile)
  | fileDigest (path : BuildFile)
  | copyFile (src dest : BuildFile)
  | chmod (path : BuildFile)
  | rename (src dest : BuildFile)
  | remove (path : BuildFile)
  | removeStaging
  | pruneDisplaced
  | restartService
  | checkHealth
  | report (outcome : UpdateOutcome)

/-- The answers: on `starts` what the process knows of itself, and whether an
action went through. -/
def UpdateOp.Ans : UpdateOp → Type
  | .starts => UpdateOptions
  | .takesUp _ _ => Unit
  | .now => Int
  | .loadJournal => Loaded UpdateJournal
  | .saveJournal _ => Bool
  | .clearJournal => Bool
  | .loadPrevious => Loaded PreviousBuild
  | .savePrevious _ => Bool
  | .makeStaging => Bool
  | .download _ _ => DownloadEnd
  | .verifyAuthenticode _ => Option (Bool × String)
  | .fileDigest _ => Option String
  | .copyFile _ _ => Option String
  | .chmod _ => FileEnd
  | .rename _ _ => FileEnd
  | .remove _ => Unit
  | .removeStaging => Unit
  | .pruneDisplaced => Unit
  | .restartService => Bool
  | .checkHealth => Bool
  | .report _ => Bool

abbrev UpdateProg (α : Type) := Prog UpdateOp UpdateOp.Ans α

/-- One action, its answer under the type it has. -/
def act (o : UpdateOp) : UpdateProg o.Ans := Prog.perform o

def loadJournal : UpdateProg (Loaded UpdateJournal) := act .loadJournal

def saveJournal (journal : UpdateJournal) : UpdateProg Bool :=
  act (.saveJournal journal)

def nowUTC : UpdateProg Int := act .now

def copyFile (src dest : BuildFile) : UpdateProg (Option String) :=
  act (.copyFile src dest)

def renameFile (src dest : BuildFile) : UpdateProg FileEnd :=
  act (.rename src dest)

def chmodFile (path : BuildFile) : UpdateProg FileEnd := act (.chmod path)

def removeFile (path : BuildFile) : UpdateProg Unit := act (.remove path)

def fileDigest (path : BuildFile) : UpdateProg (Option String) :=
  act (.fileDigest path)

def makeStaging : UpdateProg Bool := act .makeStaging

def downloadArtifact (url : String) (sizeBytes : Int) :
    UpdateProg DownloadEnd := act (.download url sizeBytes)

def verifyAuthenticode (path : BuildFile) :
    UpdateProg (Option (Bool × String)) := act (.verifyAuthenticode path)

def readPrevious : UpdateProg (Loaded PreviousBuild) := act .loadPrevious

def writePrevious (value : PreviousBuild) : UpdateProg Bool :=
  act (.savePrevious value)

def restartService : UpdateProg Bool := act .restartService

def checkHealth : UpdateProg Bool := act .checkHealth

def reportOutcome (outcome : UpdateOutcome) : UpdateProg Bool :=
  act (.report outcome)

/-! ## Checks -/

def maxArtifactBytes : Int := 256 * 1024 * 1024

def minHealthTimeoutSeconds : Int := 60

def maxHealthTimeoutSeconds : Int := 3600

def defaultHealthTimeoutSeconds : Int := 600

def maxHealthAttempts : Nat := 3

/-- `^[0-9a-f]{64}$` -/
def sha256Pattern (s : String) : Bool :=
  s.length == 64 &&
    s.toList.all fun c => c.isDigit || ('a' ≤ c && c ≤ 'f')

/-- `^[0-9A-Fa-f]{40}$` -/
def thumbprintPattern (s : String) : Bool :=
  s.length == 40 &&
    s.toList.all fun c => c.isDigit || ('a' ≤ c && c ≤ 'f') || ('A' ≤ c && c ≤ 'F')

/-- `^[A-Za-z0-9._:-]{1,64}$` -/
def idPattern (s : String) : Bool :=
  1 ≤ s.length && s.length ≤ 64 &&
    s.toList.all fun c => c.isAlphanum || "._:-".toList.contains c

def isPlatformPart (s : List Char) : Bool :=
  1 ≤ s.length && s.length ≤ 16 && s.all fun c => c.isDigit || c.isLower

/-- `^[a-z0-9]{1,16}/[a-z0-9]{1,16}$` -/
def platformPattern (s : String) : Bool :=
  match cut '/' s.toList with
  | (os, some arch) => isPlatformPart os && isPlatformPart arch
  | (_, none) => false

/-- `^[\x20-\x7E]{1,256}$` -/
def reasonPattern (s : String) : Bool :=
  1 ≤ s.length && s.length ≤ 256 &&
    s.toList.all fun c => decide (0x20 ≤ c.toNat ∧ c.toNat ≤ 0x7E)

def validArtifactURL (raw : String) : Bool :=
  match parseUrl raw with
  | some url => url.scheme == "https" && url.host != []
  | none => false

def validate (p : UpdatePayload) : Except String Unit := do
  require (idPattern p.releaseID = true) "release_id is invalid"
  require ((parseVersion p.version).isSome = true) "version is invalid"
  require ((parseVersion p.minSupportedVersion).isSome = true)
    "min_supported_version is invalid"
  require (p.channel ∈ ["stable", "beta", "canary"]) "channel is invalid"
  require (platformPattern p.platform = true) "platform is invalid"
  require (validArtifactURL p.artifactURL = true)
    "artifact url must be a valid https URL"
  require (sha256Pattern p.artifactSHA256 = true)
    "artifact sha256 must be a lowercase SHA-256 digest"
  require (0 < p.sizeBytes ∧ p.sizeBytes ≤ maxArtifactBytes)
    "artifact size_bytes must be between 1 and 268435456"
  require (p.signerThumbprint = "" ∨ thumbprintPattern p.signerThumbprint = true)
    "signer_thumbprint must be a 40-char hex thumbprint"
  require (p.healthTimeoutSeconds = 0 ∨
      (minHealthTimeoutSeconds ≤ p.healthTimeoutSeconds ∧
        p.healthTimeoutSeconds ≤ maxHealthTimeoutSeconds))
    "health_check.timeout_seconds must be between 60 and 3600"

/-- `Options.normalized` -/
def UpdateOptions.normalized (o : UpdateOptions) : Option UpdateOptions :=
  if o.exePath = "" ∨ o.platform = "" ∨
      (parseVersion o.currentVersion).isNone = true then none
  else some { o with channel := if o.channel = "" then "stable" else o.channel }

/-- The result an update starts from. -/
def updateResult (opts : UpdateOptions) (p : UpdatePayload) : UpdateResult :=
  { emptyResult with
    releaseID := p.releaseID
    fromVersion := opts.currentVersion
    toVersion := p.version
    artifactSHA256 := p.artifactSHA256 }

/-- The anti-rollback decision: `none` goes on. -/
def antiRollback (target current floor : Version) (res : UpdateResult) :
    Option UpdateResult :=
  if target.compare current = .eq then
    some (res.succeed .alreadyCurrent "already_current")
  else if target.compare current = .lt then
    some (res.fail .downgradeRefused "downgrade_refused")
  else if target.compare floor = .lt then
    some (res.fail .downgradeRefused "below_min_supported_version")
  else none

/-- What `executeUpdate` decides before it looks at the disk: `none` goes
on. -/
def refuseUpdate (opts : UpdateOptions) (p : UpdatePayload) :
    Option UpdateResult :=
  match validate p with
  | .error _ =>
    some { emptyResult.fail .invalid "payload_invalid" with
      releaseID := p.releaseID }
  | .ok () =>
    let res := updateResult opts p
    if p.platform ≠ opts.platform then
      some (res.fail .platformMismatch "platform_mismatch")
    else if p.channel ≠ opts.channel then
      some (res.fail .channelMismatch "channel_mismatch")
    else
      match parseVersion p.version, parseVersion opts.currentVersion,
        parseVersion p.minSupportedVersion with
      | some target, some current, some floor =>
        antiRollback target current floor res
      | _, _, _ => none

/-! ## Replacing the executable -/

section Package

/- `onWindows` chooses the platform's file; `sameName` is what the file system
takes a file name for. -/
variable (onWindows : Bool) (sameName : String → String)

def replaceRunningBinary (src dest : BuildFile) : UpdateProg Bool :=
  if onWindows then do
    let unixNano ← nowUTC
    let displaced ← renameFile dest (.displaced unixNano)
    if displaced = .failed then pure false
    else do
      let installed ← renameFile src dest
      if installed = .done then pure true
      else if displaced = .done then do
        let _ ← renameFile (.displaced unixNano) dest
        pure false
      else pure false
  else do
    let installed ← renameFile src dest
    pure (installed = .done)

def atomicReplace (src dest : BuildFile) : UpdateProg Bool := do
  let mode ← chmodFile src
  if mode = .failed then pure false
  else replaceRunningBinary onWindows src dest

/-- `restoreBackup`, onto the executable. -/
def restoreBackup (backup : Option BuildFile) (expectedDigest : String) :
    UpdateProg Bool :=
  match backup with
  | none => pure false
  | some path => do
    let actual ← fileDigest path
    match actual with
    | none => pure false
    | some actual =>
      if expectedDigest ≠ "" ∧ actual ≠ expectedDigest then pure false
      else do
        let copied ← copyFile path .restoreTmp
        if copied = none then do
          removeFile .restoreTmp
          pure false
        else do
          let replaced ← atomicReplace onWindows .restoreTmp .executable
          if replaced then pure true
          else do
            removeFile .restoreTmp
            pure false

/-- `rmm-agent-<version>.bak` -/
def backupPath (version : String) : BuildFile :=
  .backup (sameName ("rmm-agent-" ++ String.ofList (version.toList.map fun c =>
    if c.isAlphanum || c == '.' || c == '-' then c else '_') ++ ".bak"))

/-! ## Update -/

def healthTimeout (p : UpdatePayload) : Int :=
  1000000000 * (if p.healthTimeoutSeconds = 0 then defaultHealthTimeoutSeconds
    else p.healthTimeoutSeconds)

/-- The end of `executeUpdate`: the new build is in place. -/
def requestRestart (journal : UpdateJournal) (res : UpdateResult) :
    UpdateProg UpdateResult := do
  let requested ← restartService
  if requested then pure (res.succeed .restartPending "awaiting_health_check")
  else do
    let restored ← restoreBackup onWindows journal.backupPath
      journal.backupSHA256
    if restored then do
      let _ ← saveJournal { journal with
        state := .rolledBack, reason := "restart_request_failed" }
      pure ({ res with restartRequested := false }.fail .restartFailed
        "restart_request_failed")
    else do
      let _ ← saveJournal { journal with
        state := .failed, reason := "restart_and_restore_failed" }
      pure (res.fail .installFailed "restart_and_restore_failed")

/-- The backup is taken and journalled; the executable is replaced. -/
def swapBuild (stagedPath : BuildFile) (journal : UpdateJournal)
    (res : UpdateResult) : UpdateProg UpdateResult := do
  let replaced ← atomicReplace onWindows stagedPath .executable
  if replaced then do
    let journal := { journal with state := .installed, stagedPath := none }
    let saved ← saveJournal journal
    if saved then
      requestRestart onWindows journal { res with
        restartRequested := true, healthDeadline := journal.healthDeadline }
    else do
      let _ ← restoreBackup onWindows journal.backupPath journal.backupSHA256
      pure (res.fail .installFailed "journal_write_failed")
  else do
    let _ ← restoreBackup onWindows journal.backupPath journal.backupSHA256
    removeFile stagedPath
    let _ ← saveJournal { journal with
      state := .failed, reason := "replace_failed" }
    pure (res.fail .installFailed "replace_failed")

/-- The attempt is journalled; the running binary is backed up. -/
def installStaged (stagedPath : BuildFile) (journal : UpdateJournal)
    (backup : BuildFile) (res : UpdateResult) : UpdateProg UpdateResult := do
  let backupDigest ← copyFile .executable backup
  match backupDigest with
  | none => do
    removeFile stagedPath
    let _ ← saveJournal { journal with
      state := .failed, reason := "backup_failed" }
    pure (res.fail .installFailed "backup_failed")
  | some digest => do
    let journal := { journal with backupSHA256 := digest }
    let saved ← saveJournal journal
    if saved then swapBuild onWindows stagedPath journal res
    else do
      removeFile stagedPath
      pure (res.fail .installFailed "journal_write_failed")

/-- The staged artifact is what was signed. -/
def stageAttempt (opts : UpdateOptions) (commandID : String) (p : UpdatePayload)
    (stagedPath : BuildFile) (res : UpdateResult) : UpdateProg UpdateResult := do
  let deadline ← nowUTC
  let started ← nowUTC
  let journal : UpdateJournal := {
    state := .staged
    releaseID := p.releaseID
    commandID := commandID
    fromVersion := opts.currentVersion
    toVersion := p.version
    exePath := opts.exePath
    backupPath := some (backupPath sameName opts.currentVersion)
    stagedPath := some stagedPath
    artifactSHA256 := p.artifactSHA256
    startedAt := started
    healthDeadline := some (deadline + healthTimeout p) }
  let saved ← saveJournal journal
  if saved then
    installStaged onWindows stagedPath journal
      (backupPath sameName opts.currentVersion) res
  else do
    removeFile stagedPath
    pure (res.fail .stageFailed "journal_write_failed")

/-- The optional pinned signer, on top of the digest. -/
def checkSigner (p : UpdatePayload) (stagedPath : BuildFile) :
    UpdateProg Bool :=
  if p.signerThumbprint = "" then pure true
  else do
    let signer ← verifyAuthenticode stagedPath
    match signer with
    | some (valid, thumb) =>
      pure (valid && thumb.toLower == p.signerThumbprint.toLower)
    | none => pure false

def stageArtifact (opts : UpdateOptions) (commandID : String)
    (p : UpdatePayload) (res : UpdateResult) : UpdateProg UpdateResult := do
  let transfer ← downloadArtifact p.artifactURL p.sizeBytes
  match transfer with
  | .failed none => pure (res.fail .downloadFailed "download_failed")
  | .failed (some stagedPath) => do
    removeFile stagedPath
    pure (res.fail .downloadFailed "download_failed")
  | .done stagedPath size digest => do
    let res := { res with downloadedBytes := size }
    if digest ≠ p.artifactSHA256 then do
      removeFile stagedPath
      pure (res.fail .tampered "artifact_digest_mismatch")
    else if size ≠ p.sizeBytes then do
      removeFile stagedPath
      pure (res.fail .tampered "artifact_size_mismatch")
    else do
      let signed ← checkSigner p stagedPath
      if signed then
        stageAttempt onWindows sameName opts commandID p stagedPath res
      else do
        removeFile stagedPath
        pure (res.fail .signatureMismatch "authenticode_mismatch")

/-- The states in which another attempt is refused. -/
def JournalState.InFlight (s : JournalState) : Prop :=
  s = .staged ∨ s = .installed

instance (s : JournalState) : Decidable s.InFlight :=
  inferInstanceAs (Decidable (s = .staged ∨ s = .installed))

def executeUpdate (opts : UpdateOptions) (commandID : String)
    (payload : Option UpdatePayload) : UpdateProg UpdateResult :=
  match payload with
  | none => pure (emptyResult.fail .invalid "payload_malformed")
  | some p =>
    match refuseUpdate opts p with
    | some res => pure res
    | none => do
      let res := updateResult opts p
      let existing ← loadJournal
      match existing with
      | .failed => pure (res.fail .invalid "journal_unreadable")
      | .found journal =>
        if journal.state.InFlight then
          pure (res.fail .updateInProgress "update_in_progress")
        else proceed p res
      | .absent => proceed p res
where
  /-- No other attempt is in flight. -/
  proceed (p : UpdatePayload) (res : UpdateResult) :
      UpdateProg UpdateResult := do
    let made ← makeStaging
    if made then stageArtifact onWindows sameName opts commandID p res
    else pure (res.fail .stageFailed "staging_unavailable")

/-! ## Rollback -/

/-- `loadPrevious`: an incomplete record is an error. -/
def loadPrevious : UpdateProg (Loaded PreviousBuild) := do
  let loaded ← readPrevious
  match loaded with
  | .found value =>
    if value.path = none ∨ sha256Pattern value.sha256 = false then pure .failed
    else pure (.found value)
  | other => pure other

/-- `savePrevious`: nothing is written without a path and a digest. -/
def savePrevious (value : PreviousBuild) : UpdateProg Bool :=
  if value.path = none ∨ value.sha256 = "" then pure true
  else writePrevious value

/-- What `executeRollback` refuses before it looks at the disk. -/
def refuseRollback (opts : UpdateOptions) (p : RollbackPayload) :
    Option UpdateResult :=
  if p.confirm = false ∨ reasonPattern p.reason = false then
    some (emptyResult.fail .invalid "payload_invalid")
  else if p.expectedCurrentVersion ≠ "" ∧
      p.expectedCurrentVersion ≠ opts.currentVersion then
    some ({ emptyResult with fromVersion := opts.currentVersion }.fail .invalid
      "version_precondition_failed")
  else none

/-- The journal of a rollback on request. -/
def rollbackJournal (opts : UpdateOptions) (commandID : String)
    (previous : PreviousBuild) (started deadline : Int) : UpdateJournal where
  state := .rolledBack
  commandID := commandID
  fromVersion := opts.currentVersion
  toVersion := previous.version
  exePath := opts.exePath
  backupPath := previous.path
  backupSHA256 := previous.sha256
  artifactSHA256 := previous.sha256
  startedAt := started
  healthDeadline := some (deadline + 1000000000 * defaultHealthTimeoutSeconds)
  reason := "operator_requested_rollback"

def executeRollback (opts : UpdateOptions) (commandID : String)
    (payload : Option RollbackPayload) : UpdateProg UpdateResult :=
  match payload with
  | none => pure (emptyResult.fail .invalid "payload_malformed")
  | some p =>
    match refuseRollback opts p with
    | some res => pure res
    | none => do
      let res := { emptyResult with fromVersion := opts.currentVersion }
      let previous ← loadPrevious
      match previous with
      | .failed => pure (res.fail .failed "previous_build_unreadable")
      | .absent => pure (res.fail .noPreviousBuild "no_previous_build")
      | .found previous => do
        let res := { res with
          toVersion := previous.version, artifactSHA256 := previous.sha256 }
        let restored ← restoreBackup onWindows previous.path previous.sha256
        if restored then do
          let started ← nowUTC
          let deadline ← nowUTC
          let saved ← saveJournal
            (rollbackJournal opts commandID previous started deadline)
          if saved then do
            let res := { res with restartRequested := true }
            let requested ← restartService
            if requested then
              pure (res.succeed .rolledBack "operator_requested_rollback")
            else pure (res.fail .restartFailed "restart_request_failed")
          else pure (res.fail .failed "journal_write_failed")
        else pure (res.fail .failed "restore_failed")

/-- `Execute` -/
def execute (opts : UpdateOptions) (cmd : UpdateCommand) :
    UpdateProg UpdateResult :=
  match opts.normalized with
  | none => pure (emptyResult.fail .invalid "endpoint_state_unusable")
  | some opts =>
    match cmd with
    | .selfUpdate commandID payload =>
      executeUpdate onWindows sameName opts commandID payload
    | .rollback commandID payload =>
      executeRollback onWindows opts commandID payload

/-! ## Recovery at start -/

/-- What `Resolve` returns: an error, nothing to report, or an outcome. -/
inductive ResolveEnd where
  | failed
  | nothing
  | outcome (status : UpdateStatus) (journal : UpdateJournal)
  deriving DecidableEq, Repr

/-- `rollback` -/
def rollbackAttempt (journal : UpdateJournal) (reason : String) :
    UpdateProg ResolveEnd := do
  let restored ← restoreBackup onWindows journal.backupPath journal.backupSHA256
  if restored then do
    let journal := { journal with state := .rolledBack, reason := reason }
    let saved ← saveJournal journal
    if saved then do
      let _ ← restartService
      pure (.outcome .rolledBack journal)
    else pure .failed
  else do
    let journal := { journal with
      state := .failed, reason := reason ++ "+restore_failed" }
    let _ ← saveJournal journal
    pure (.outcome .failed journal)

/-- Healthy: the backup becomes the retained previous build. -/
def commitAttempt (journal : UpdateJournal) : UpdateProg ResolveEnd := do
  let kept ← savePrevious
    ⟨journal.fromVersion, journal.backupPath, journal.backupSHA256⟩
  if kept then do
    let journal := { journal with
      state := .committed, reason := "health_check_passed" }
    let saved ← saveJournal journal
    if saved then do
      let _ ← act .removeStaging
      let _ ← act .pruneDisplaced
      pure (.outcome .succeeded journal)
    else pure .failed
  else pure .failed

def resolveInstalled (opts : UpdateOptions) (journal : UpdateJournal) :
    UpdateProg ResolveEnd := do
  -- counted before the check runs, so a crash during it is counted too
  let journal := { journal with attempts := journal.attempts + 1 }
  let saved ← saveJournal journal
  if saved = false then pure .failed
  else if journal.exePath ≠ opts.exePath then
    rollbackAttempt onWindows journal "installation_path_changed"
  else if opts.currentVersion ≠ journal.toVersion then
    rollbackAttempt onWindows journal "version_mismatch_after_restart"
  else if maxHealthAttempts < journal.attempts then
    rollbackAttempt onWindows journal "health_check_attempts_exhausted"
  else do
    let late ← deadlinePassed journal.healthDeadline
    if late then
      rollbackAttempt onWindows journal "health_check_deadline_exceeded"
    else do
      let healthy ← checkHealth
      if healthy then commitAttempt journal
      else rollbackAttempt onWindows journal "health_check_failed"
where
  /-- A deadline that does not parse never passes. -/
  deadlinePassed : Option Int → UpdateProg Bool
    | none => pure false
    | some deadline => do
      let t ← nowUTC
      pure (decide (deadline < t))

/-- The staged artifact is removed, when there is one. -/
def discardStaged : Option BuildFile → UpdateProg Unit
  | some path => removeFile path
  | none => pure ()

/-- `Resolve` -/
def resolve (opts : UpdateOptions) : UpdateProg ResolveEnd := do
  let loaded ← loadJournal
  match loaded with
  | .failed => do
    let _ ← act .clearJournal
    pure .failed
  | .absent => pure .nothing
  | .found journal =>
    match journal.state with
    | .staged => do
      discardStaged journal.stagedPath
      let journal := { journal with
        state := .failed, reason := "interrupted_before_install" }
      let saved ← saveJournal journal
      if saved then pure (.outcome .failed journal) else pure .failed
    | .installed => resolveInstalled onWindows opts journal
    | .committed => pure (.outcome .succeeded journal)
    | .rolledBack => pure (.outcome .rolledBack journal)
    | .failed => pure (.outcome .failed journal)
    | .other _ => do
      let journal := { journal with
        state := .failed, reason := "unknown_journal_state" }
      let _ ← saveJournal journal
      pure (.outcome .failed journal)

/-- `Acknowledge` -/
def acknowledge : UpdateProg Unit := do
  let loaded ← loadJournal
  match loaded with
  | .found journal =>
    if journal.state.InFlight then pure ()
    else do
      let _ ← act .clearJournal
      pure ()
  | _ => do
    let _ ← act .clearJournal
    pure ()

/-- `resolveSelfUpdate` -/
def resolveSelfUpdate (opts : UpdateOptions) : UpdateProg Unit :=
  match opts.normalized with
  | none => pure ()
  | some opts => do
    let ended ← resolve onWindows opts
    match ended with
    | .outcome status journal => do
      let reported ← reportOutcome (outcomeOf journal opts status)
      if reported then acknowledge else pure ()
    | _ => pure ()

/-! ## The agent as a machine -/

/-- A start: the process learns what it is, and resolves an attempt. -/
def bootUpdates : UpdateProg (Option UpdateOptions) := do
  let opts ← act .starts
  resolveSelfUpdate onWindows opts
  pure (some opts)

/-- One command, taken up by a running process. -/
def runCommand (opts : UpdateOptions) (cmd : UpdateCommand) :
    UpdateProg (Option UpdateOptions) := do
  let _ ← act (.takesUp opts cmd)
  let _ ← execute onWindows sameName opts cmd
  pure (some opts)

/-- Starts, and commands in any order. -/
def updateMachine : Machine UpdateOp UpdateOp.Ans UpdateOptions where
  boot := bootUpdates onWindows
  starts := fun opts p => ∃ cmd, p = runCommand onWindows sameName opts cmd

/-- A world of which nothing is assumed: any action may give any answer. -/
def anyAnswers : World UpdateOp UpdateOp.Ans Unit where
  does := fun _ _ _ _ => True
  torn := fun _ _ _ => True

/-- Running one version, the agent takes an update to another up and asks for
the restart into it. -/
def Accepts (running target : AgentVersion) : Prop :=
  ∃ opts commandID payload res,
    opts.currentVersion = running.val.raw ∧ payload.version = target.val.raw ∧
      RunsTo anyAnswers (execute onWindows sameName opts
        (.selfUpdate commandID (some payload))) () res () ∧
      res.status = .restartPending

end Package

end NodeLink.Agent.SelfUpdate
