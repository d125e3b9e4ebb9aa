import NodeLink.Server.PowerPolicy

/-!
# Restarts, on the agent

`power/power.go`: `executeAt`, for the two actions that restart or stop the
machine; `patching/reboot.go` and the end of `runUpdateInstall`. What the
platform answers is given: the user who is signed in, and whether the action
was accepted. Instants are nanoseconds.
-/

namespace NodeLink.Agent

open Lib Server

/-- Nanoseconds of a microsecond, and of a second. -/
def microsecond : Int := 1000

def powerSecond : Int := 1000000000

inductive PowerKind where
  | reboot
  | shutdown
  deriving DecidableEq, Repr

/-- What the platform says to a request to act after a delay. -/
structure ScheduleAnswer where
  status : String
  message : String
  error : Option String
  deriving DecidableEq, Repr

/-- `installTimeout`: what one attempt may take. -/
def installTimeout : Int := 20 * 60 * powerSecond

/-- The attempts of `runUpdateInstall`: the signed number, or one. -/
def installAttempts (maxAttempts : Option Nat) : Nat :=
  if maxAttempts.getD 0 < 1 then 1 else maxAttempts.getD 0

inductive RebootDecision where
  | scheduled
  | deferred
  | notNeeded
  | skipped
  | scheduleFailed
  deriving DecidableEq, Repr

def RebootDecision.text : RebootDecision → String
  | .scheduled => "scheduled"
  | .deferred => "deferred_user_present"
  | .notNeeded => "not_required"
  | .skipped => "skipped"
  | .scheduleFailed => "schedule_failed"

/-- An installation that did not fail: when it was over, whether it asks for a
restart, and what the platform says then. An unknown user counts as none. -/
structure Installed where
  finished : Int
  rebootRequired : Bool
  user : Option String
  answer : ScheduleAnswer

end NodeLink.Agent
