import NodeLink.Agent.SelfUpdate
import Mathlib.Data.List.Infix
import Mathlib.Logic.Function.Basic

/-!
# The disk the updater works on

The executable, its staged, displaced and retained copies, the journal and
the record of the previous build. Renames and journal saves are whole or
absent; a copy that fails or is cut short leaves a first part, and the
previous record is written in place. Any action may fail, and what is
downloaded, what a starting build says of itself, the clock, the health check
and the service manager are arbitrary.

`since` only records: the disk as it was when the command in progress was
taken up.
-/

namespace NodeLink.Agent.SelfUpdate

open Lib

structure UpdateDisk where
  files : BuildFile → Option Bytes
  journal : Loaded UpdateJournal := .absent
  previous : Loaded PreviousBuild := .absent

/-- An attempt is staged or installed. -/
def UpdateDisk.InFlight (d : UpdateDisk) : Prop :=
  ∃ journal, d.journal = .found journal ∧ journal.state.InFlight

structure UpdateWorld where
  disk : UpdateDisk
  since : Option UpdateDisk := none

namespace UpdateWorld

def put (w : UpdateWorld) (path : BuildFile) (content : Option Bytes) :
    UpdateWorld :=
  { w with disk := { w.disk with
    files := Function.update w.disk.files path content } }

def setJournal (w : UpdateWorld) (journal : Loaded UpdateJournal) :
    UpdateWorld :=
  { w with disk := { w.disk with journal := journal } }

def setPrevious (w : UpdateWorld) (previous : Loaded PreviousBuild) :
    UpdateWorld :=
  { w with disk := { w.disk with previous := previous } }

/-- Some of the files `drops` holds of are gone. -/
def Drops (drops : BuildFile → Prop) (w w' : UpdateWorld) : Prop :=
  ∃ files, (∀ path, ¬ drops path → files path = w.disk.files path) ∧
    w' = { w with disk := { w.disk with files := files } }

/-- A first part of `src` at `dest`. -/
def CopiesPart (w : UpdateWorld) (src dest : BuildFile) (w' : UpdateWorld) :
    Prop :=
  ∃ content part, w.disk.files src = some content ∧ part <+: content ∧
    w' = w.put dest (some part)

def Moves (w : UpdateWorld) (src dest : BuildFile) (w' : UpdateWorld) : Prop :=
  ∃ content, w.disk.files src = some content ∧
    w' = (w.put dest (some content)).put src none

end UpdateWorld

def BuildFile.IsStaged : BuildFile → Prop
  | .staged _ => True
  | _ => False

def BuildFile.IsDisplaced : BuildFile → Prop
  | .displaced _ => True
  | _ => False

section World

variable (sha256 : Bytes → String)

/-- An action that completes. -/
def updateDoes (w : UpdateWorld) :
    (o : UpdateOp) → o.Ans → UpdateWorld → Prop
  | .starts, _, w' => w' = { w with since := none }
  | .takesUp _ _, _, w' => w' = { w with since := some w.disk }
  | .now, _, w' => w' = w
  | .loadJournal, loaded, w' =>
    (loaded = .failed ∨ loaded = w.disk.journal) ∧ w' = w
  | .saveJournal journal, (ok : Bool), w' =>
    w' = w.setJournal (.found journal) ∨ (ok = false ∧ w' = w)
  | .clearJournal, (ok : Bool), w' =>
    w' = w.setJournal .absent ∨ (ok = false ∧ w' = w)
  | .loadPrevious, loaded, w' =>
    (loaded = .failed ∨ loaded = w.disk.previous) ∧ w' = w
  | .savePrevious value, (ok : Bool), w' =>
    w' = w.setPrevious (.found value) ∨
      (ok = false ∧ (w' = w ∨ w' = w.setPrevious .failed))
  | .makeStaging, _, w' => w' = w
  | .download _ _, ended, w' =>
    match ended with
    | .failed none => w' = w
    | .failed (some path) => path.IsStaged ∧ ∃ content, w' = w.put path content
    | .done path size digest => path.IsStaged ∧ ∃ content,
        size = content.length ∧ digest = sha256 content ∧
          w' = w.put path (some content)
  | .verifyAuthenticode _, _, w' => w' = w
  | .fileDigest path, digest, w' =>
    (∀ d, digest = some d →
      ∃ content, w.disk.files path = some content ∧ d = sha256 content) ∧ w' = w
  | .copyFile src dest, digest, w' =>
    match digest with
    | some d => ∃ content, w.disk.files src = some content ∧
        d = sha256 content ∧ w' = w.put dest (some content)
    | none => w' = w ∨ w.CopiesPart src dest w'
  | .chmod _, _, w' => w' = w
  | .rename src dest, ended, w' =>
    match ended with
    | .done => w.Moves src dest w'
    | .missing => w.disk.files src = none ∧ w' = w
    | .failed => w' = w
  | .remove path, _, w' => w' = w.put path none ∨ w' = w
  | .removeStaging, _, w' => w.Drops BuildFile.IsStaged w'
  | .pruneDisplaced, _, w' => w.Drops BuildFile.IsDisplaced w'
  | .restartService, _, w' => w' = w
  | .checkHealth, _, w' => w' = w
  | .report _, _, w' => w' = w

/-- What a crash in the middle of an action may leave. -/
def updateTorn (w : UpdateWorld) : UpdateOp → UpdateWorld → Prop
  | .saveJournal journal, w' => w' = w.setJournal (.found journal)
  | .clearJournal, w' => w' = w.setJournal .absent
  | .savePrevious value, w' =>
    w' = w.setPrevious (.found value) ∨ w' = w.setPrevious .failed
  | .download _ _, w' =>
    ∃ path content, path.IsStaged ∧ w' = w.put path content
  | .copyFile src dest, w' => w.CopiesPart src dest w'
  | .rename src dest, w' => w.Moves src dest w'
  | .remove path, w' => w' = w.put path none
  | .removeStaging, w' => w.Drops BuildFile.IsStaged w'
  | .pruneDisplaced, w' => w.Drops BuildFile.IsDisplaced w'
  | _, _ => False

def updateWorld : World UpdateOp UpdateOp.Ans UpdateWorld where
  does := updateDoes sha256
  torn := updateTorn

/-- The file is there and has the digest. -/
def UpdateDisk.Holds (d : UpdateDisk) (path : BuildFile) (digest : String) :
    Prop :=
  ∃ content, d.files path = some content ∧ sha256 content = digest

/-! ## One attempt at a time -/

/-- The executable, the retained copies and the journal are as they were. -/
structure UpdateDisk.Undisturbed (d d' : UpdateDisk) : Prop where
  journal : d'.journal = d.journal
  executable : d'.files .executable = d.files .executable
  backup : ∀ name, d'.files (.backup name) = d.files (.backup name)

/-- A command taken up while an attempt was in flight has disturbed nothing,
and the previous record names the digest of the file that is kept. -/
structure OneAttempt (w : UpdateWorld) : Prop where
  undisturbed : ∀ d, w.since = some d → d.InFlight → d.Undisturbed w.disk
  retained : ∀ value, w.disk.previous = .found value →
    ∃ path, value.path = some path ∧ w.disk.Holds sha256 path value.sha256

/-- A rollback on request that passes its checks and finds a build to
restore. -/
def RollsBack (d : UpdateDisk) (opts : UpdateOptions) (p : RollbackPayload) :
    Prop :=
  (∃ normalized, opts.normalized = some normalized ∧
      refuseRollback normalized p = none) ∧
    ∃ value path, d.previous = .found value ∧ value.path = some path ∧
      sha256Pattern value.sha256 = true ∧ d.Holds sha256 path value.sha256

/-- The steps after which there is one attempt at a time. No rollback on
request is taken up that would act while an attempt is in flight; and what is
copied onto the file the previous record names is a build of the recorded
digest, and arrives whole. -/
def InTurn (w : UpdateWorld) : UpdateOp → UpdateWorld → Prop
  | .takesUp opts (.rollback _ (some p)), _ =>
    w.disk.InFlight → ¬ RollsBack sha256 w.disk opts p
  | .copyFile src dest, w' =>
    ∀ value, w.disk.previous = .found value → value.path = some dest →
      w' = w ∨ (w.disk.Holds sha256 src value.sha256 ∧
        ∃ content, w.disk.files src = some content ∧
          w' = w.put dest (some content))
  | _, _ => True

/-- The world whose steps are all in turn. -/
def inTurnWorld : World UpdateOp UpdateOp.Ans UpdateWorld where
  does := fun w o a w' => updateDoes sha256 w o a w' ∧ InTurn sha256 w o w'
  torn := fun w o w' => updateTorn w o w' ∧ InTurn sha256 w o w'

end World

end NodeLink.Agent.SelfUpdate
