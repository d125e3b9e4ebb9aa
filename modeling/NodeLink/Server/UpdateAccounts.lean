import NodeLink.Agent.UpdateWorld
import NodeLink.Server.Rollouts

/-!
# What becomes of update attempts

One endpoint of a release beside its server. The endpoint runs as its machine
does; before each of its actions the server may take any number of its own,
with the reports of other endpoints among them, and the endpoint's command may
end on its way. A report is a request of the server's, answered once it is
committed.

What is noted beside the two only records: how far the release's command has
come, whether its build was confirmed, whether the command was under way or
over when the endpoint last started, and whether that start has missed
something it needed.
-/

namespace NodeLink.Server.UpdateAccounts

open Lib Agent.SelfUpdate Server.Rollouts
open Server.AgentUpdates (AgentUpdateRelease AgentUpdateAttempt AttemptStatus
  UpdateAgent UpdateOps passOver)

/-- How far the release's command for the endpoint has come. -/
inductive CommandStage where
  | waiting
  /-- Expired before it was delivered, or refused before the updater had it. -/
  | lapsed
  | takenUp
  /-- A journal of the attempt has been on the disk. -/
  | journalled
  deriving DecidableEq, Repr

structure AccountWorld where
  endpoint : UpdateWorld
  server : State
  stage : CommandStage := .waiting
  confirmed : Bool := false
  due : Bool := false
  missed : Bool := false

/-! ## Reports -/

def reportStatus : UpdateStatus → Option AttemptStatus
  | .succeeded => some .succeeded
  | .rolledBack => some .rolledBack
  | .failed => some .failed
  | _ => none

/-- `^[a-z0-9_+]{1,100}$` -/
def reasonCode (s : String) : Bool :=
  decide (1 ≤ s.length ∧ s.length ≤ 100) && s.toList.all fun c =>
    ('a' ≤ c && c ≤ 'z') || c.isDigit || c == '_' || c == '+'

/-- The client leaves an empty text out. -/
def omitEmpty (s : String) : Option String := if s = "" then none else some s

/-- `SelfUpdateReportIn`: the outcome as the server reads it, unless it refuses
it. -/
def selfUpdateReportIn (o : UpdateOutcome) : Option SelfUpdateReport :=
  match reportStatus o.status with
  | none => none
  | some status =>
    if (∀ s ∈ [o.releaseID, o.commandID, o.fromVersion, o.toVersion,
          o.observedVersion], s.length ≤ 64) ∧
        (o.reason = "" ∨ reasonCode o.reason = true) ∧ o.attempts ≤ 100 then
      some
        { status := status
          fromVersion := omitEmpty o.fromVersion
          toVersion := omitEmpty o.toVersion
          observedVersion := omitEmpty o.observedVersion
          reason := omitEmpty o.reason
          attempts := o.attempts }
    else none

/-! ## Attempts at the server -/

section Attempts

variable (ops : UpdateOps) (agentId : String)

/-- The endpoint's attempt has an outcome. -/
def Recorded (s : State) : Prop :=
  ∃ a ∈ s.attempts, a.agentId = agentId ∧ a.status ≠ .dispatched

/-- An advance that covers the endpoint dispatches to it, whatever attempts
there are. -/
def Redispatches (s : State) : Prop :=
  ∀ (r : AgentUpdateRelease) (a : UpdateAgent), a.id = agentId →
    passOver ops r [] a = none →
      passOver ops r (s.attempts.map (·.agentId)) a = none

/-- The attempt is recorded as failed or rolled back, or the endpoint is
dispatched to again. -/
def AccountedFor (s : State) : Prop :=
  (∃ a ∈ s.attempts, a.agentId = agentId ∧
    (a.status = .failed ∨ a.status = .rolledBack)) ∨ Redispatches ops agentId s

/-- The command that was dispatched with the endpoint's attempt. -/
def Dispatched (s : State) (commandID : String) : Prop :=
  ∃ a ∈ s.attempts, a.agentId = agentId ∧ a.commandId = commandID

def ownReport : Action → Bool
  | .begin _ _ (.report id _) => decide (id = agentId)
  | _ => false

/-- What the server does without the endpoint. -/
def ServerActs (s s' : State) : Prop :=
  ∃ acts, (∀ a ∈ acts, ownReport agentId a = false) ∧
    (system ops).runs s acts = true ∧ s' = (system ops).run s acts

/-- The request `t` ends. -/
def settles (t : Nat) : Action → Bool
  | .commit u => decide (u = t)
  | .abort u => decide (u = t)
  | _ => false

/-- A report begins and is committed, whatever the server does meanwhile. -/
def ReportCommitted (s : State) (body : SelfUpdateReport) (s' : State) : Prop :=
  ∃ t now acts, (∀ a ∈ acts, ownReport agentId a = false ∧ settles t a = false) ∧
    (system ops).runs s
      (.begin t now (.report agentId body) :: (acts ++ [.commit t])) = true ∧
    s' = (system ops).run s
      (.begin t now (.report agentId body) :: (acts ++ [.commit t]))

/-- A report that is not answered: it may not have arrived, and it may be
under way or be committed all the same. -/
def ReportLost (s : State) (body : SelfUpdateReport) (s' : State) : Prop :=
  s' = s ∨ ∃ t now acts, (∀ a ∈ acts, ownReport agentId a = false) ∧
    (system ops).runs s (.begin t now (.report agentId body) :: acts) = true ∧
    s' = (system ops).run s (.begin t now (.report agentId body) :: acts)

end Attempts

/-! ## The world of one endpoint -/

section World

variable (sha256 : Bytes → String) (ops : UpdateOps) (r : AgentUpdateRelease)
  (agentId : String)

def OfRelease (releaseID : String) : Prop := releaseID = r.id ∧ releaseID ≠ ""

instance (releaseID : String) : Decidable (OfRelease r releaseID) :=
  inferInstanceAs (Decidable (_ ∧ _))

/-- What happens before an action of the endpoint. -/
def Around (w v : AccountWorld) : Prop :=
  ∃ s, ServerActs ops agentId w.server s ∧
    (v = { w with server := s } ∨
      (w.stage = .waiting ∧ (∃ commandID, Dispatched agentId s commandID) ∧
        v = { w with
          server := s
          stage := .lapsed }))

/-- A command that updates to the release is the one that was dispatched, and
is taken up once. -/
def TakenInOrder (w : AccountWorld) : UpdateOp → Prop
  | .takesUp _ (.selfUpdate commandID (some p)) => OfRelease r p.releaseID →
    w.stage = .waiting ∧ Dispatched agentId w.server commandID
  | _ => True

/-- What an action does at the server. -/
def serverDoes (s : State) : (o : UpdateOp) → o.Ans → State → Prop
  | .report outcome, (ok : Bool), s' =>
    if OfRelease r outcome.releaseID then
      match selfUpdateReportIn outcome with
      | some body =>
        (ok = true ∧ ReportCommitted ops agentId s body s') ∨
          (ok = false ∧ ReportLost ops agentId s body s')
      | none => ok = false ∧ s' = s
    else s' = s
  | _, _, s' => s' = s

/-- A journal has been saved, if `after` holds it. -/
def noteJournal (w : AccountWorld) (after : UpdateWorld)
    (journal : UpdateJournal) : AccountWorld :=
  if after.disk.journal = .found journal ∧ OfRelease r journal.releaseID then
    { w with
      endpoint := after
      stage := .journalled
      confirmed := w.confirmed || decide (journal.state = .committed) }
  else { w with endpoint := after }

def noteMissed (w : AccountWorld) (missed : Bool) : AccountWorld :=
  { w with missed := w.missed || missed }

def updatesTo : Agent.SelfUpdate.UpdateCommand → Bool
  | .selfUpdate _ (some p) => decide (OfRelease r p.releaseID)
  | _ => false

/-- What is noted of an action and its answer. -/
def noted (w : AccountWorld) (after : UpdateWorld) :
    (o : UpdateOp) → o.Ans → AccountWorld
  | .starts, _ =>
    { w with
      endpoint := after
      due := decide (w.stage ≠ .waiting)
      missed := false }
  | .takesUp _ cmd, _ =>
    { w with
      endpoint := after
      stage := if updatesTo r cmd = true then .takenUp else w.stage }
  | .loadJournal, (loaded : Loaded UpdateJournal) =>
    noteMissed { w with endpoint := after } (decide (loaded = .failed))
  | .saveJournal journal, (ok : Bool) =>
    noteMissed (noteJournal r w after journal) (!ok)
  | .savePrevious _, (ok : Bool) => noteMissed { w with endpoint := after } (!ok)
  | .report outcome, (ok : Bool) =>
    noteMissed { w with endpoint := after }
      (!ok && (selfUpdateReportIn outcome).isSome)
  | _, _ => { w with endpoint := after }

/-- An action that completes, among those `allowed`. -/
def accountDoes (allowed : AccountWorld → (o : UpdateOp) → o.Ans → Prop)
    (w : AccountWorld) (o : UpdateOp) (a : o.Ans) (w' : AccountWorld) : Prop :=
  ∃ v after s, Around ops agentId w v ∧ allowed v o a ∧
    TakenInOrder r agentId v o ∧
    updateDoes sha256 v.endpoint o a after ∧
    serverDoes ops r agentId v.server o a s ∧
    w' = { noted r v after o a with server := s }

/-- What a crash in the middle of an action may leave. -/
def accountTorn (allowed : AccountWorld → UpdateOp → Prop) (w : AccountWorld)
    (o : UpdateOp) (w' : AccountWorld) : Prop :=
  ∃ v, Around ops agentId w v ∧ allowed v o ∧
    match o with
    | .saveJournal journal => ∃ after,
      updateTorn v.endpoint (.saveJournal journal) after ∧
        w' = noteJournal r v after journal
    | .report outcome => ∃ body s, OfRelease r outcome.releaseID ∧
      selfUpdateReportIn outcome = some body ∧
      ReportLost ops agentId v.server body s ∧ w' = { v with server := s }
    | o => ∃ after, updateTorn v.endpoint o after ∧
      w' = { v with endpoint := after }

def accountWorld : World UpdateOp UpdateOp.Ans AccountWorld where
  does := accountDoes sha256 ops r agentId fun _ _ _ => True
  torn := accountTorn ops r agentId fun _ _ => True

/-- An outcome of the release is on the disk and not yet at the server. -/
def Pending (w : AccountWorld) : Prop :=
  ∃ journal, w.endpoint.disk.journal = .found journal ∧
    OfRelease r journal.releaseID ∧ ¬ Recorded agentId w.server

/-- The outcome of the release is not cleared or written over before it is
recorded, and the report of it is one the server takes. -/
def Spares (w : AccountWorld) : UpdateOp → Prop
  | .saveJournal journal => Pending r agentId w → OfRelease r journal.releaseID
  | .clearJournal => ¬ Pending r agentId w
  | .report outcome => OfRelease r outcome.releaseID →
    (selfUpdateReportIn outcome).isSome = true
  | _ => True

/-- The steps after which no attempt is left over: outcomes are spared, a
starting build knows its path, platform and version, and a command that is over
by then has been journalled. -/
def Clear (w : AccountWorld) : (o : UpdateOp) → o.Ans → Prop
  | .starts, (opts : UpdateOptions) => opts.normalized.isSome = true ∧
    (w.stage = .waiting ∨ w.stage = .journalled)
  | o, _ => Spares r agentId w o

/-- The world whose steps are all clear. -/
def clearWorld : World UpdateOp UpdateOp.Ans AccountWorld where
  does := accountDoes sha256 ops r agentId (Clear r agentId)
  torn := accountTorn ops r agentId (Spares r agentId)

/-- A fresh installation, and a release that has not been rolled out. -/
def freshAccount (files : BuildFile → Option Bytes) (fleet : List UpdateAgent) :
    AccountWorld where
  endpoint := { disk := { files := files } }
  server := { release := r, fleet := fleet }

/-- Once a start has gone through, the attempt that was due by then is
confirmed or accounted for. -/
def NoneLeft : AccountWorld × Proc UpdateOp UpdateOp.Ans UpdateOptions → Prop
  | (w, .idle _) => w.due = true → w.missed = false → w.confirmed = false →
    AccountedFor ops agentId w.server
  | _ => True

end World

end NodeLink.Server.UpdateAccounts
