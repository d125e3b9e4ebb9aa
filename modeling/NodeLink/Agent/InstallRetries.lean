import Mathlib.Data.List.Sort
import NodeLink.Agent.UpdateInstall

/-!
# Installing, and trying again

`InstallWithRetry` of `patching/install.go` over the script of
`install_windows.go`. What Windows Update finds and what comes of each update
is given, attempt by attempt. Every installation is noted with the updates it
was asked for.
-/

namespace NodeLink.Agent.UpdateInstall

open Lib

/-! ## One installation -/

/-- `OperationResultCode.orcSucceeded` -/
def orcSucceeded : Int := 2

/-- `IUpdateInstallationResult` -/
structure InstallationResult where
  resultCode : Int
  hResult : BitVec 32
  rebootRequired : Bool
  deriving DecidableEq, Repr

/-- How a run of the script ends: with its list of results, caught before
anything is installed, or without an answer that can be read. -/
inductive ScriptEnd where
  | lists
  | caught (message : String)
  | unread
  deriving DecidableEq, Repr

/-- What one run of the script meets with. -/
structure Attempt where
  rebootPending : Bool
  search : List ApplicableUpdate
  result : ApplicableUpdate → InstallationResult
  rebootRequired : Bool
  ends : ScriptEnd

/-- `UpdateOutcome` -/
structure UpdateOutcome where
  identifier : String
  resultCode : Int
  hResult : String
  attempts : Int
  rebootRequired : Bool
  deriving DecidableEq, Repr

inductive InstallStatus where
  | success
  | inPart
  | failed
  deriving DecidableEq, Repr

/-- `InstallResult`, as the installation leaves it. -/
structure InstallResult where
  status : InstallStatus
  installedKBs : List String
  failedKBs : List String
  results : List UpdateOutcome
  rebootRequired : Bool
  message : String
  deriving DecidableEq, Repr

/-- The updates Windows Update was asked to install, and the result code of
each where one was read. -/
structure Installation where
  asked : List ApplicableUpdate
  code : ApplicableUpdate → Option Int

/-- `$kbStr` -/
def identifier (u : ApplicableUpdate) : String :=
  match u.kbArticleIDs with
  | kb :: _ => "KB" ++ kb
  | [] => u.updateID

/-- An entry of `$result.results`. -/
def outcomeOf (a : Attempt) (u : ApplicableUpdate) : UpdateOutcome where
  identifier := identifier u
  resultCode := (a.result u).resultCode
  hResult := "0x" ++ (a.result u).hResult.toHex.toUpper
  attempts := 0
  rebootRequired := (a.result u).rebootRequired

def statusOf (installed failed : List String) : InstallStatus :=
  if failed = [] then .success
  else if installed = [] then .failed
  else .inPart

/-- The identifiers of the outcomes of this kind. -/
def identifiersWhere (p : UpdateOutcome → Bool)
    (outcomes : List UpdateOutcome) : List String :=
  (outcomes.filter p).map (·.identifier)

def succeeded (o : UpdateOutcome) : Bool := decide (o.resultCode = orcSucceeded)

section Script

variable (same : String → String → Bool) (a : Attempt) (t : InstallTargets)

/-- `$toInstall` -/
def toInstall : List ApplicableUpdate := a.search.filter (picks same t)

/-- What the script prints after an installation. -/
def listed : InstallResult :=
  let results := (toInstall same a t).map (outcomeOf a)
  let installed := identifiersWhere succeeded results
  let failed := identifiersWhere (!succeeded ·) results
  { status := statusOf installed failed
    installedKBs := installed
    failedKBs := failed
    results
    rebootRequired := a.rebootPending || results.any (·.rebootRequired)
      || a.rebootRequired
    message := "Installed " ++ toString installed.length ++ " update(s), "
      ++ toString failed.length ++ " failed." }

/-- `psInstallScript`: what it has installed, and what it prints. -/
def psInstallScript : Installation × Option InstallResult :=
  match a.ends with
  | .unread => (⟨toInstall same a t, fun _ => none⟩, none)
  | .caught message => (⟨[], fun _ => none⟩,
      some ⟨.failed, [], [], [], a.rebootPending, message⟩)
  | .lists =>
    if a.search = [] then
      (⟨[], fun _ => none⟩, some ⟨.success, [], [], [], a.rebootPending,
        "No missing updates found to install."⟩)
    else if toInstall same a t = [] then
      (⟨[], fun _ => none⟩, some ⟨.failed, [], [], [], a.rebootPending,
        "None of the requested KB or Windows Update IDs were found "
          ++ "among applicable missing updates."⟩)
    else
      (⟨toInstall same a t, fun u => some (a.result u).resultCode⟩,
        some (listed same a t))

/-- `Install`; targets that are refused never reach the script. -/
def install (toUpper toLower : String → String) :
    Installation × Option InstallResult :=
  match normalizeInstallTargets toUpper toLower t with
  | none => (⟨[], fun _ => none⟩, none)
  | some normalized => psInstallScript same a normalized

end Script

/-! ## Retries -/

/-- `outcomes[outcome.Identifier] = outcome`, with the number of attempts that
follows from the entry there has been. The entries stand in the order in which
their identifiers came up. -/
def setOutcome (attempts : Option UpdateOutcome → Int)
    (outcomes : List UpdateOutcome) (o : UpdateOutcome) : List UpdateOutcome :=
  let prev := outcomes.find? fun p => decide (p.identifier = o.identifier)
  let o' := { o with attempts := attempts prev }
  if prev.isSome then
    outcomes.map fun p => if p.identifier = o.identifier then o' else p
  else
    outcomes ++ [o']

/-- The number of attempts after attempt `attempt`. -/
def countAttempt (attempt : Nat) : Option UpdateOutcome → Int
  | some prev => prev.attempts + 1
  | none => attempt

/-- `retryableKBs` -/
def retryableKBs (outcomes : List UpdateOutcome) : List String :=
  (identifiersWhere (fun o => !succeeded o && matchesKBTarget o.identifier)
    outcomes).insertionSort (· ≤ ·)

/-- `assembleInstallResult` -/
def assembleInstallResult (outcomes : List UpdateOutcome)
    (rebootRequired : Bool) (message : String) : InstallResult :=
  let installed := identifiersWhere succeeded outcomes
  let failed := identifiersWhere (!succeeded ·) outcomes
  { status := statusOf installed failed
    installedKBs := installed
    failedKBs := failed
    results := outcomes
    rebootRequired := rebootRequired || outcomes.any (·.rebootRequired)
    message }

/-- What `InstallWithRetry` carries from attempt to attempt, and the
installations so far, the latest first. -/
structure Retrying where
  outcomes : List UpdateOutcome
  rebootRequired : Bool
  message : String
  made : List Installation

/-- After the first attempt. -/
def startRetrying (made : Installation) (first : InstallResult) : Retrying where
  outcomes := first.results.foldl (setOutcome fun _ => 1) []
  rebootRequired := first.rebootRequired
  message := first.message
  made := [made]

/-- After attempt `attempt`. -/
def Retrying.goOn (s : Retrying) (attempt : Nat) (made : Installation)
    (retry : InstallResult) : Retrying where
  outcomes := retry.results.foldl (setOutcome (countAttempt attempt)) s.outcomes
  rebootRequired := s.rebootRequired || retry.rebootRequired
  message := if retry.message ≠ "" then retry.message else s.message
  made := made :: s.made

section Retry

variable (toUpper toLower : String → String) (same : String → String → Bool)
  (attempts : Nat → Attempt)

/-- The loop, with so many attempts left. -/
def retryLoop : Nat → Nat → Retrying → Retrying
  | 0, _, s => s
  | left + 1, attempt, s =>
    if retryableKBs s.outcomes = [] then s
    else
      match install same (attempts attempt)
          ⟨false, retryableKBs s.outcomes, []⟩ toUpper toLower with
      | (made, none) => { s with made := made :: s.made }
      | (made, some retry) =>
        retryLoop left (attempt + 1) (s.goOn attempt made retry)

/-- `InstallWithRetry`: all installations there were, the latest first, and the
report, or `none` for an error. -/
def installWithRetry (t : InstallTargets) (maxAttempts : Int) :
    List Installation × Option InstallResult :=
  match install same (attempts 1) t toUpper toLower with
  | (made, none) => ([made], none)
  | (made, some first) =>
    if first.results = [] then ([made], some first)
    else
      let s := retryLoop toUpper toLower same attempts (maxAttempts.toNat - 1) 2
        (startRetrying made first)
      (s.made,
        some (assembleInstallResult s.outcomes s.rebootRequired s.message))

end Retry

end NodeLink.Agent.UpdateInstall
