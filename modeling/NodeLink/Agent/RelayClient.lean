import Mathlib
import NodeLink.Lib.Trim

/-!
# Calls over relay routes

`internal/client`: `do`, `doAt` and the routes of `routes.go`. What one
request over one route comes to is an input, so is the clock; times and
durations are nanoseconds. Redaction of messages is a parameter.
-/

namespace NodeLink.Agent

open Lib

structure StatusError where
  statusCode : Nat
  message : String
  deriving DecidableEq, Repr

/-- An error of a call, by what `errors.Is` and `errors.As` find in it. -/
inductive CallError where
  | canceled
  | deadlineExceeded
  | status (err : StatusError)
  | other
  deriving DecidableEq, Repr

structure Answer where
  statusCode : Nat
  body : String
  deriving DecidableEq, Repr

/-- Why no answer could be had. -/
inductive Breakdown where
  | badURL
  /-- DNS, a refused or reset connection, TLS, a pin that does not match. -/
  | transport
  /-- `http.Client.Timeout` has elapsed. -/
  | clientTimeout
  | malformedBody
  | callerCanceled
  | callerDeadline
  deriving DecidableEq, Repr

/-- `net/http` reports its own timeout as an exceeded deadline. -/
def Breakdown.error : Breakdown → CallError
  | .clientTimeout | .callerDeadline => .deadlineExceeded
  | .callerCanceled => .canceled
  | .badURL | .transport | .malformedBody => .other

/-- One request over one route. A response has a body, whose decoding may
break down. -/
inductive Exchange where
  | broken (why : Breakdown)
  | response (statusCode : Nat) (body : String) (decoding : Option Breakdown)
  deriving DecidableEq, Repr

/-- What a call is made with. -/
structure CallRequest where
  method : String
  path : String
  wantsOut : Bool
  auth : Bool
  deriving DecidableEq, Repr

section Calls

variable (redactText : String → String)

/-- `doAt` -/
def doAt (agentToken : String) (request : CallRequest) (exchange : Exchange) :
    Except CallError Answer :=
  if request.auth ∧ agentToken = "" then .error .other
  else
    match exchange with
    | .broken why => .error why.error
    | .response statusCode body decoding =>
      if 400 ≤ statusCode then
        .error (.status ⟨statusCode, redactText (request.method ++ " "
          ++ request.path ++ ": " ++ toString statusCode ++ " "
          ++ trimSpace body)⟩)
      else if request.wantsOut ∧ statusCode ≠ 204 then
        match decoding with
        | some why => .error why.error
        | none => .ok ⟨statusCode, body⟩
      else .ok ⟨statusCode, body⟩

/-! ## Routes -/

/-- `routeState`; without a cooldown `until` is the zero time. -/
structure RouteState where
  id : String
  baseURL : String
  failures : Nat := 0
  cooldownUntil : Option Int := none
  deriving DecidableEq, Repr

structure RelayClient where
  agentToken : String
  routes : List RouteState
  routesExpireAt : Int
  lastRoute : String
  deriving DecidableEq, Repr

def originRouteID : String := "origin"

def routeCooldownInitial : Int := 30000000000

def routeCooldownMax : Int := 600000000000

/-- `^/api/v1/commands/[^/]{1,64}/result$` -/
def isResultPath (path : List Char) : Bool :=
  match "/api/v1/commands/".toList.isPrefixOf path with
  | false => false
  | true =>
    let rest := path.drop "/api/v1/commands/".length
    let id := rest.takeWhile (· ≠ '/')
    decide (1 ≤ id.length ∧ id.length ≤ 64
      ∧ rest.drop id.length = "/result".toList)

def isRelayable (method path : String) : Bool :=
  decide (method = "POST") &&
    (decide (path ∈ ["/api/v1/heartbeat", "/api/v1/agents/me/inventory",
      "/api/v1/agents/me/monitoring/results",
      "/api/v1/agents/credentials/renew"]) || isResultPath path.toList)

def RouteState.resting (route : RouteState) (now : Int) : Bool :=
  route.cooldownUntil.any fun t => decide (now < t)

/-- `activeRoutes`, as positions in the list of routes. -/
def RelayClient.activeRoutes (c : RelayClient) (now : Int) : List Nat :=
  if now < c.routesExpireAt then
    (List.range c.routes.length).filter fun i =>
      (c.routes[i]?).any fun route => !route.resting now
  else []

/-- The cooldown after so many failures: the shift is one of 64 bits. -/
def routeCooldown (failures : Nat) : Int :=
  let cooldown := (routeCooldownInitial * 2 ^ (failures - 1)).bmod (2 ^ 64)
  if cooldown ≤ 0 ∨ routeCooldownMax < cooldown then routeCooldownMax
  else cooldown

def RouteState.mark (route : RouteState) (ok : Bool) (now : Int) : RouteState :=
  if ok then { route with failures := 0, cooldownUntil := none }
  else
    { route with
      failures := route.failures + 1
      cooldownUntil := some (now + routeCooldown (route.failures + 1)) }

/-- `markRoute` -/
def RelayClient.markRoute (c : RelayClient) (i : Nat) (ok : Bool) (now : Int) :
    RelayClient := { c with routes := c.routes.modify i (·.mark ok now) }

/-- `setLastRoute` -/
def RelayClient.setLastRoute (c : RelayClient) (id : String) : RelayClient :=
  { c with lastRoute := id }

/-- `strings.Contains` -/
def contains (s part : String) : Bool := decide (part.toList <:+: s.toList)

/-- The refusals of a relay, or of the residency rules, that another route may
not meet. -/
def routeRefusal (message : String) : Bool :=
  contains message "\"code\":\"relay_" || contains message "\"code\": \"relay_" ||
    contains message "\"code\":\"residency_" ||
    contains message "\"code\": \"residency_"

/-- `shouldFailover` of an error -/
def shouldFailover : CallError → Bool
  | .canceled | .deadlineExceeded => false
  | .other => true
  | .status err =>
    if 500 ≤ err.statusCode ∨ err.statusCode = 429 then true
    else if err.statusCode = 401 then false
    else routeRefusal err.message

/-! ## The walk -/

/-- Where a request was sent. -/
inductive Hop where
  | relay (i : Nat)
  | origin
  deriving DecidableEq, Repr

/-- What `do` returns, the client after it, and where it went. -/
structure CallOutcome where
  result : Except CallError Answer
  client : RelayClient
  hops : List Hop

variable (request : CallRequest) (exchange : Hop → Exchange) (now : Int)

/-- The call over the origin, which nothing comes after. -/
def callOrigin (c : RelayClient) : CallOutcome :=
  match doAt redactText c.agentToken request (exchange .origin) with
  | .ok answer => ⟨.ok answer, c.setLastRoute originRouteID, [.origin]⟩
  | .error e => ⟨.error e, c, [.origin]⟩

/-- The loop of `do` over the active routes, and the origin behind it. -/
def walkRoutes : List Nat → RelayClient → CallOutcome
  | [], c => callOrigin redactText request exchange c
  | i :: rest, c =>
    match doAt redactText c.agentToken request (exchange (.relay i)) with
    | .ok answer =>
      ⟨.ok answer, (c.markRoute i true now).setLastRoute
        ((c.routes[i]?.map (·.id)).getD ""), [.relay i]⟩
    | .error e =>
      if shouldFailover e then
        let outcome := walkRoutes rest (c.markRoute i false now)
        { outcome with hops := .relay i :: outcome.hops }
      else ⟨.error e, c.markRoute i true now, [.relay i]⟩

/-- The routes a call walks before the origin. -/
def RelayClient.relaysFor (c : RelayClient) : List Nat :=
  if request.auth ∧ isRelayable request.method request.path then
    c.activeRoutes now
  else []

/-- `do`. A call the relays do not carry goes to the origin, which leaves no
mark on the last route. -/
def RelayClient.call (c : RelayClient) : CallOutcome :=
  if request.auth ∧ isRelayable request.method request.path then
    walkRoutes redactText request exchange now (c.activeRoutes now) c
  else
    ⟨doAt redactText c.agentToken request (exchange .origin), c, [.origin]⟩

end Calls

end NodeLink.Agent
