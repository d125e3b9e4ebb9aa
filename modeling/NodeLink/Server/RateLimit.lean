import Mathlib
import NodeLink.Lib.Actions
import NodeLink.Lib.SlidingWindow

/-!
# In-process rate limits

`LoginRateLimiter` of `core/ratelimit.py`, `limit` of `api/support_chat.py`
(also the head of `enroll` in `api/agents.py`), and `login` of `api/auth.py`
as the limiter sees it. Times are readings of `time.monotonic`; subtracting
the window is left a parameter, a rounding one in the source.
-/

namespace NodeLink.Server

open Lib Function

/-- `LoginRateLimiter`, less its state: `cutoff` is `now - window_seconds` and
`wait` is `max(0.0, q[0] + window_seconds - now)`. -/
structure LoginRateLimiter (T V : Type) where
  maxFailures : Int
  cutoff : T → T
  wait : T → T → V

/-- `_failures` -/
abbrev Failures (K T : Type) := K → Option (List T)

/-- What `retry_after` answers: `None`, seconds, or `q[0]` of an empty queue. -/
inductive RetryAfter (V : Type) where
  | free
  | blocked (seconds : V)
  | indexError
  deriving DecidableEq, Repr

/-- The clock readings of one `limit`. -/
structure Ticks (T : Type) where
  asked : T
  recorded : T
  deriving DecidableEq, Repr

namespace LoginRateLimiter

variable {K T V : Type} [DecidableEq K] [LinearOrder T]
variable (l : LoginRateLimiter T V)

/-- `_prune`: an emptied queue is dropped from the table. -/
def prune (failures : Failures K T) (key : K) (now : T) :
    List T × Failures K T :=
  let q := popped (l.cutoff now) ((failures key).getD [])
  (q, update failures key (if q.isEmpty then none else some q))

/-- What is answered for a pruned queue. -/
def answer (q : List T) (now : T) : RetryAfter V :=
  if (q.length : Int) < l.maxFailures then .free
  else
    match q with
    | [] => .indexError
    | first :: _ => .blocked (l.wait first now)

/-- `retry_after` -/
def retryAfter (failures : Failures K T) (key : K) (now : T) :
    RetryAfter V × Failures K T :=
  let (q, failures) := l.prune failures key now
  (l.answer q now, failures)

/-- `record_failure` -/
def recordFailure (failures : Failures K T) (key : K) (now : T) :
    Failures K T :=
  let failures := (l.prune failures key now).2
  update failures key (some ((failures key).getD [] ++ [now]))

/-- `clear` -/
def clear (failures : Failures K T) (key : K) : Failures K T :=
  update failures key none

/-- `reset` -/
def reset : Failures K T := fun _ => none

/-- A call of a method, with its key. -/
inductive Call (K : Type) where
  | retryAfter (key : K)
  | recordFailure (key : K)
  | clear (key : K)
  | reset
  deriving DecidableEq, Repr

/-- A call at a clock reading, and its answer where it has one. -/
def call (failures : Failures K T) (now : T) :
    Call K → Option (RetryAfter V) × Failures K T
  | .retryAfter key =>
      let (answer, failures) := l.retryAfter failures key now
      (some answer, failures)
  | .recordFailure key => (none, l.recordFailure failures key now)
  | .clear key => (none, clear failures key)
  | .reset => (none, reset)

/-- The answers to a sequence of calls. -/
def answers (failures : Failures K T) :
    List (T × Call K) → List (Option (RetryAfter V))
  | [] => []
  | (now, c) :: calls =>
      let (answer, failures) := l.call failures now c
      answer :: answers failures calls

/-- `limit`: the request passes, or fails with 429 (500 for the raise). Each of
the two calls reads the clock. -/
def limit (failures : Failures K T) (key : K) (ticks : Ticks T) :
    Bool × Failures K T :=
  match l.retryAfter failures key ticks.asked with
  | (.free, failures) => (true, l.recordFailure failures key ticks.recorded)
  | (_, failures) => (false, failures)

/-- The state and the records of the requests that passed, after requests at
clock readings. -/
def limits (requests : List (Ticks T × K)) : Failures K T × List (T × K) :=
  requests.foldl
    (fun (failures, passed) (ticks, key) =>
      let (ok, failures) := l.limit failures key ticks
      (failures, if ok then passed ++ [(ticks.recorded, key)] else passed))
    (reset, [])

end LoginRateLimiter

/-! ## Logins -/

/-- The limiter and the logins past its check, by key. -/
structure LoginState (K T : Type) where
  failures : Failures K T
  inFlight : List K
  clock : T

/-- `login` waits for the database between the check and the verdict, and not
between verifying the password and recording it. -/
inductive LoginStep (K : Type) where
  | check (key : K)
  | refuse (key : K)
  | accept (key : K)
  | abort (key : K)
  deriving DecidableEq, Repr

section Login

variable {K T V : Type} [DecidableEq K] [LinearOrder T]

def loginEnabled (s : LoginState K T) (a : T × LoginStep K) : Bool :=
  decide (s.clock ≤ a.1) &&
    match a.2 with
    | .check _ => true
    | .refuse key | .accept key | .abort key => decide (key ∈ s.inFlight)

def loginNext (l : LoginRateLimiter T V) (s : LoginState K T)
    (a : T × LoginStep K) : LoginState K T :=
  match a.2 with
  | .check key =>
      match l.retryAfter s.failures key a.1 with
      | (.free, failures) => ⟨failures, key :: s.inFlight, a.1⟩
      | (_, failures) => ⟨failures, s.inFlight, a.1⟩
  | .refuse key =>
      ⟨l.recordFailure s.failures key a.1, s.inFlight.erase key, a.1⟩
  | .accept key =>
      ⟨LoginRateLimiter.clear s.failures key, s.inFlight.erase key, a.1⟩
  | .abort key => ⟨s.failures, s.inFlight.erase key, a.1⟩

def logins (l : LoginRateLimiter T V) :
    System (LoginState K T) (T × LoginStep K) where
  enabled := loginEnabled
  next := loginNext l

/-- A process that has just started. -/
def LoginState.start (clock : T) : LoginState K T :=
  ⟨LoginRateLimiter.reset, [], clock⟩

end Login

end NodeLink.Server
