import Mathlib.Data.Int.Notation

/-!
# When a check of an agent changes its status

`applyHysteresis` in `internal/monitoring/evaluator.go`. The count of a pending
status stays below the samples that it takes, so it does not overflow.
-/

namespace NodeLink.Agent.Evaluator

/-- `CheckState`, without the revision and the time, which decide whether there
is a sample. -/
structure CheckState where
  status : String := ""
  pendingStatus : String := ""
  pendingCount : Int := 0
  deriving DecidableEq, Repr

structure Hysteresis where
  raiseSamples : Int
  clearSamples : Int
  deriving DecidableEq, Repr

/-- `severity`, a map: what is not in it has 0. -/
def severity (status : String) : Int :=
  if status = "unknown" then -1
  else if status = "warning" then 1
  else if status = "critical" then 2
  else 0

/-- The samples in a row that a change of a known state takes. -/
def requiredSamples (hysteresis : Hysteresis) (status raw : String) : Int :=
  if status = "unknown" ∧ raw = "ok" then 1
  else if severity raw > severity status then hysteresis.raiseSamples
  else hysteresis.clearSamples

def changeStatus (raw : String) (state : CheckState) (hysteresis : Hysteresis) :
    String × CheckState :=
  let pendingCount :=
    if state.pendingStatus = raw then state.pendingCount + 1 else 1
  if pendingCount ≥ requiredSamples hysteresis state.status raw then
    (raw, { status := raw, pendingStatus := "", pendingCount := 0 })
  else
    (state.status, { state with pendingStatus := raw, pendingCount })

/-- `applyHysteresis`: the status, and the state afterwards. -/
def applyHysteresis (raw : String) (state : CheckState)
    (hysteresis : Hysteresis) : String × CheckState :=
  let hysteresis : Hysteresis :=
    { raiseSamples := max hysteresis.raiseSamples 1
      clearSamples := max hysteresis.clearSamples 1 }
  if raw = "unknown" then
    (raw, { status := raw, pendingStatus := "", pendingCount := 0 })
  else if state.status = "" then
    if (raw = "warning" ∨ raw = "critical") ∧ hysteresis.raiseSamples ≠ 1 then
      ("unknown", { status := "unknown", pendingStatus := raw, pendingCount := 1 })
    else
      (raw, { state with status := raw })
  else if raw = state.status then
    (state.status, { state with pendingStatus := "", pendingCount := 0 })
  else
    changeStatus raw state hysteresis

end NodeLink.Agent.Evaluator
