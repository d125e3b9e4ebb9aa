import Mathlib.Data.String.Basic
import Mathlib.Data.Int.Order.Basic
import Mathlib.Data.List.MinMax

/-!
# Maintenance windows

`core/monitoring.py`: `_window_active_at` and `active_maintenance_windows`.
Instants are microseconds of UTC. A time zone enters through its offsets, the
zone database being a parameter; wall-clock readings are microseconds too,
counted from the wall's own 1970-01-01. Python compares two readings of one
zone by the wall clock, and adds a duration to one on the wall clock as well.
-/

namespace NodeLink.Server

/-- Instants are compared by the order that the integers compute with. -/
instance (priority := high) instPreorderInstant : Preorder Int :=
  Int.instLinearOrder.toPreorder

inductive MonitoringScope where
  | global
  | client
  | site
  | agent
  deriving DecidableEq, Repr

/-- `schemas.WeeklyRecurrence`, with what its validators promise. Day 0 is
Monday; `start` is read as the hour and minute it spells. -/
structure WeeklyRecurrence where
  days : List (Fin 7)
  hour : Fin 24
  minute : Fin 60
  durationMinutes : Nat
  days_ne : days ≠ []
  duration_pos : 1 ≤ durationMinutes
  duration_le : durationMinutes ≤ 7 * 24 * 60
  deriving DecidableEq, Repr

/-- A row of `maintenance_windows`; its identifier is generated. -/
structure MaintenanceWindow where
  id : String
  scope : MonitoringScope
  scopeID : Option String
  startsAt : Int
  endsAt : Int
  timezone : String
  recurrence : Option WeeklyRecurrence
  id_ne : id ≠ ""
  deriving DecidableEq, Repr

/-- Offset from UTC of a zone at an instant; `none` when `ZoneInfo` raises. -/
abbrev ZoneTable := String → Option (Int → Int)

def microsPerMinute : Int := 60 * 1000000

def microsPerDay : Int := 86400 * 1000000

/-- `_utc(at).astimezone(tz)`, with UTC for a zone that cannot be loaded. -/
def localTime (zones : ZoneTable) (timezone : String) (instant : Int) : Int :=
  instant + ((zones (if timezone = "" then "UTC" else timezone)).elim 0 (· instant))

/-- `day.weekday()`; day 0 was a Thursday. -/
def weekday (day : Int) : Nat := ((day + 3) % 7).toNat

/-- Start of the occurrence on a local day. -/
def WeeklyRecurrence.occurrenceStart (r : WeeklyRecurrence) (day : Int) : Int :=
  day * microsPerDay + (r.hour * 60 + r.minute) * microsPerMinute

def WeeklyRecurrence.duration (r : WeeklyRecurrence) : Int :=
  r.durationMinutes * microsPerMinute

/-- The occurrence that starts on a local day is open at a local time. -/
def WeeklyRecurrence.openOn (r : WeeklyRecurrence) (wall day : Int) : Bool :=
  r.days.any (fun d => decide (d.val = weekday day))
    && decide (r.occurrenceStart day ≤ wall)
    && decide (wall < r.occurrenceStart day + r.duration)

/-- Whether a window is open at an instant inside its validity. Only the local
day and the one before it are looked at. -/
def windowActiveAt (zones : ZoneTable) (window : MaintenanceWindow)
    (instant : Int) : Bool :=
  match window.recurrence with
  | none => true
  | some r =>
    [0, 1].any fun offset : Int =>
      r.openOn (localTime zones window.timezone instant)
        ((localTime zones window.timezone instant - offset * microsPerDay)
          / microsPerDay)

/-- The rows that place an agent: agent to site, site to client. -/
structure Directory where
  agentSite : String → Option String
  siteClient : String → Option String

/-- An agent, by the columns a window's scope is matched against. -/
structure AgentPlace where
  id : String
  siteID : String
  deriving DecidableEq, Repr

/-- The window's scope takes in an agent at a site. -/
def MaintenanceWindow.covers (window : MaintenanceWindow) (dir : Directory)
    (agent : AgentPlace) : Bool :=
  match window.scope with
  | .global => true
  | .client =>
    decide (dir.siteClient agent.siteID ≠ none)
      && decide (window.scopeID = dir.siteClient agent.siteID)
  | .site => decide (window.scopeID = some agent.siteID)
  | .agent => decide (window.scopeID = some agent.id)

/-- The `where` clause bounds the validity, then recurrence is looked at. -/
def MaintenanceWindow.openFor (zones : ZoneTable) (dir : Directory)
    (agent : AgentPlace) (instant : Int) (window : MaintenanceWindow) : Bool :=
  decide (window.startsAt ≤ instant) && decide (instant < window.endsAt)
    && window.covers dir agent && windowActiveAt zones window instant

/-- Maintenance windows covering the agent that are open at `instant`. -/
def activeMaintenanceWindows (zones : ZoneTable) (dir : Directory)
    (windows : List MaintenanceWindow) (agent : AgentPlace) (instant : Int) :
    List MaintenanceWindow :=
  windows.filter (·.openFor zones dir agent instant)

end NodeLink.Server
