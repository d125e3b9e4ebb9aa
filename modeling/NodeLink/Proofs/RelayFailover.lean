import NodeLink.Agent.RelayClient

/-!
# Failover over relay routes

A call walks the active routes up to the first whose attempt does not make it
go on, and ends at the origin. It goes on after every failed attempt but one
that timed out, since that error is taken for the caller's own deadline. So
the walk finds a live route exactly when no active route times out before one
has answered.
-/

namespace NodeLink.Proofs.RelayFailover

open Lib Agent

/-! ## What is asked of a call -/

/-- The route answered: with what was asked for, or with a refusal that is
about the request and not about the route. -/
def answered : Except CallError Answer → Bool
  | .ok _ => true
  | .error (.status err) => !shouldFailover (.status err)
  | .error _ => false

/-- The caller's context is not done. -/
def Undone (exchange : Hop → Exchange) : Prop :=
  ∀ hop why, exchange hop = .broken why ∨
      (∃ statusCode body, exchange hop = .response statusCode body (some why)) →
    why ≠ .callerCanceled ∧ why ≠ .callerDeadline

/-- An answer from a route that answered, or every route tried; failed routes
rest and the one that answered does not. -/
structure FindsRoute (outcome : CallOutcome)
    (attempt : Hop → Except CallError Answer) (relays : List Nat) (now : Int) :
    Prop where
  found : (∃ hop ∈ outcome.hops, answered (attempt hop) = true ∧
      outcome.result = attempt hop) ∨
    outcome.hops = relays.map Hop.relay ++ [Hop.origin]
  rests : ∀ i, Hop.relay i ∈ outcome.hops → ∀ route,
    outcome.client.routes[i]? = some route →
      route.resting now = !answered (attempt (.relay i))

/-- A route times out before one has answered. -/
def TimesOutFirst (attempt : Hop → Except CallError Answer)
    (relays : List Nat) : Prop :=
  ∃ before i after, relays = before ++ i :: after ∧
    attempt (.relay i) = .error .deadlineExceeded ∧
    ∀ j ∈ before, answered (attempt (.relay j)) = false

theorem timesOutFirst_nil {attempt : Hop → Except CallError Answer} :
    ¬ TimesOutFirst attempt [] := by
  intro ⟨before, i, after, hsplit, _⟩
  simp at hsplit

theorem timesOutFirst_cons {attempt : Hop → Except CallError Answer} {i : Nat}
    {relays : List Nat} :
    TimesOutFirst attempt (i :: relays) ↔
      attempt (.relay i) = .error .deadlineExceeded ∨
        (answered (attempt (.relay i)) = false ∧ TimesOutFirst attempt relays) := by
  constructor
  · intro ⟨before, j, after, hsplit, htimeout, hbefore⟩
    cases before with
    | nil =>
        rw [List.nil_append, List.cons.injEq] at hsplit
        rw [hsplit.1]
        exact .inl htimeout
    | cons b before =>
        rw [List.cons_append, List.cons.injEq] at hsplit
        obtain ⟨rfl, hrest⟩ := hsplit
        exact .inr ⟨hbefore i List.mem_cons_self, before, j, after, hrest, htimeout,
          fun k hk => hbefore k (List.mem_cons_of_mem _ hk)⟩
  · intro h
    rcases h with htimeout | ⟨hfirst, before, j, after, hsplit, htimeout, hbefore⟩
    · exact ⟨[], i, relays, rfl, htimeout, nofun⟩
    · refine ⟨i :: before, j, after, by rw [hsplit]; rfl, htimeout, ?_⟩
      intro k hk
      rcases List.mem_cons.mp hk with rfl | hk
      · exact hfirst
      · exact hbefore k hk

/-! ## Attempts -/

section Attempts

variable {redactText : String → String} {token : String}
variable {request : CallRequest} {exchange : Hop → Exchange}

/-- While the caller waits, no attempt is reported as cancelled. -/
theorem doAt_ne_canceled (hundone : Undone exchange) (hop : Hop) :
    doAt redactText token request (exchange hop) ≠ .error .canceled := by
  intro h
  unfold doAt at h
  split at h
  · cases h
  · split at h
    · next why hwhy =>
        have hnot := hundone hop why (.inl hwhy)
        cases why with
        | callerCanceled => exact hnot.1 rfl
        | badURL | transport | clientTimeout | malformedBody | callerDeadline =>
            cases h
    · next statusCode body decoding hresponse =>
        split at h
        · cases h
        · split at h
          · split at h
            · next why =>
                have hnot := hundone hop why
                  (.inr ⟨statusCode, body, hresponse⟩)
                cases why with
                | callerCanceled => exact hnot.1 rfl
                | badURL | transport | clientTimeout | malformedBody
                | callerDeadline => cases h
            · cases h
          · cases h

/-- An attempt answers, makes the call go on, or has timed out. -/
theorem attempt_cases (hundone : Undone exchange) (hop : Hop) {e : CallError}
    (he : doAt redactText token request (exchange hop) = .error e) :
    (shouldFailover e = true ∧
        answered (doAt redactText token request (exchange hop)) = false) ∨
      (shouldFailover e = false ∧
        answered (doAt redactText token request (exchange hop)) = true) ∨
      e = .deadlineExceeded := by
  cases e with
  | canceled => exact absurd he (doAt_ne_canceled hundone hop)
  | deadlineExceeded => exact .inr (.inr rfl)
  | other =>
      left
      rw [he]
      exact ⟨rfl, rfl⟩
  | status err =>
      rw [he]
      cases hgo : shouldFailover (.status err) with
      | true => exact .inl ⟨rfl, by rw [answered, hgo]; rfl⟩
      | false => exact .inr (.inl ⟨rfl, by rw [answered, hgo]; rfl⟩)

end Attempts

/-! ## Marks -/

theorem routeCooldown_pos (failures : Nat) : 0 < routeCooldown failures := by
  rw [routeCooldown]
  split
  · decide
  · next hsmall => exact Int.not_le.mp fun hle => hsmall (.inl hle)

theorem resting_mark (route : RouteState) (ok : Bool) (now : Int) :
    (route.mark ok now).resting now = !ok := by
  cases ok with
  | true => rfl
  | false =>
      have hpos := routeCooldown_pos (route.failures + 1)
      rw [RouteState.mark, if_neg Bool.false_ne_true, RouteState.resting]
      refine decide_eq_true ?_
      omega

theorem markRoute_self {c : RelayClient} {i : Nat} {ok : Bool} {now : Int}
    {route : RouteState} (h : (c.markRoute i ok now).routes[i]? = some route) :
    route.resting now = !ok := by
  rw [RelayClient.markRoute, List.getElem?_modify] at h
  obtain ⟨r, -, hr⟩ := Option.map_eq_some_iff.mp h
  rw [if_pos rfl] at hr
  rw [← hr, resting_mark]

theorem markRoute_ne {c : RelayClient} {i j : Nat} {ok : Bool} {now : Int}
    (h : i ≠ j) : (c.markRoute i ok now).routes[j]? = c.routes[j]? := by
  rw [RelayClient.markRoute, List.getElem?_modify]
  simp only [if_neg h]
  exact Option.map_id'

/-! ## The walk -/

section Walk

variable {redactText : String → String} {request : CallRequest}
variable {exchange : Hop → Exchange} {now : Int}

theorem callOrigin_routes (c : RelayClient) :
    (callOrigin redactText request exchange c).client.routes = c.routes := by
  rw [callOrigin]
  split <;> rfl

theorem callOrigin_hops (c : RelayClient) :
    (callOrigin redactText request exchange c).hops = [.origin] := by
  rw [callOrigin]
  split <;> rfl

/-- The walk marks the routes it was given. -/
theorem walkRoutes_other {relays : List Nat} {c : RelayClient} {j : Nat}
    (hj : j ∉ relays) :
    (walkRoutes redactText request exchange now relays c).client.routes[j]? =
      c.routes[j]? := by
  induction relays generalizing c with
  | nil =>
      rw [walkRoutes, callOrigin_routes]
  | cons i relays ih =>
      have hne : i ≠ j := fun he => hj (he ▸ List.mem_cons_self)
      have hrest : j ∉ relays := fun hm => hj (List.mem_cons_of_mem _ hm)
      rw [walkRoutes]
      split
      · exact markRoute_ne hne
      · split
        · exact (ih hrest).trans (markRoute_ne hne)
        · exact markRoute_ne hne

/-- A walk that ends at its first route. -/
theorem findsRoute_first {attempt : Hop → Except CallError Answer} {i : Nat}
    {relays : List Nat} {c c' : RelayClient}
    (hroutes : c'.routes = (c.markRoute i true now).routes)
    (hanswered : answered (attempt (.relay i)) = true) :
    FindsRoute ⟨attempt (.relay i), c', [.relay i]⟩ attempt (i :: relays)
      now := by
  refine ⟨.inl ⟨_, List.mem_singleton_self _, hanswered, rfl⟩, ?_⟩
  intro j hj route hroute
  obtain rfl := Hop.relay.inj (List.mem_singleton.mp hj)
  change c'.routes[j]? = _ at hroute
  rw [hroutes] at hroute
  rw [hanswered]
  exact markRoute_self hroute

/-- A walk that goes on finds a route exactly when the rest of it does. -/
theorem findsRoute_onward {attempt : Hop → Except CallError Answer} {i : Nat}
    {relays : List Nat} {outcome : CallOutcome}
    (hfailed : answered (attempt (.relay i)) = false)
    (hresting : ∀ route, outcome.client.routes[i]? = some route →
      route.resting now = true) :
    FindsRoute { outcome with hops := .relay i :: outcome.hops } attempt
        (i :: relays) now ↔ FindsRoute outcome attempt relays now := by
  constructor
  · intro h
    refine ⟨?_, fun j hj => h.rests j (List.mem_cons_of_mem _ hj)⟩
    rcases h.found with ⟨hop, hhop, hanswered, hresult⟩ | hall
    · rcases List.mem_cons.mp hhop with rfl | hhop
      · rw [hfailed] at hanswered
        cases hanswered
      · exact .inl ⟨hop, hhop, hanswered, hresult⟩
    · exact .inr (List.cons.inj hall).2
  · intro h
    constructor
    · rcases h.found with ⟨hop, hhop, hanswered, hresult⟩ | hall
      · exact .inl ⟨hop, List.mem_cons_of_mem _ hhop, hanswered, hresult⟩
      · exact .inr (congrArg (Hop.relay i :: ·) hall)
    · intro j hj route hroute
      rcases List.mem_cons.mp hj with hji | hj
      · obtain rfl := Hop.relay.inj hji
        rw [hfailed]
        exact hresting route hroute
      · exact h.rests j hj route hroute

theorem walkRoutes_finds_iff (hundone : Undone exchange) {relays : List Nat}
    (hnodup : relays.Nodup) {c : RelayClient} :
    FindsRoute (walkRoutes redactText request exchange now relays c)
        (fun hop => doAt redactText c.agentToken request (exchange hop)) relays
        now ↔
      ¬ TimesOutFirst
        (fun hop => doAt redactText c.agentToken request (exchange hop))
        relays := by
  induction relays generalizing c with
  | nil =>
      refine ⟨fun _ => timesOutFirst_nil, fun _ => ?_⟩
      rw [walkRoutes]
      refine ⟨.inr (callOrigin_hops c), fun i hi => ?_⟩
      rw [callOrigin_hops] at hi
      cases List.mem_singleton.mp hi
  | cons i relays ih =>
      obtain ⟨hi, hnodup⟩ := List.nodup_cons.mp hnodup
      rw [timesOutFirst_cons, walkRoutes]
      cases hattempt : doAt redactText c.agentToken request
          (exchange (.relay i)) with
      | ok answer =>
          have hfinds := @findsRoute_first now
            (fun hop => doAt redactText c.agentToken request (exchange hop)) i
            relays c ((c.markRoute i true now).setLastRoute
              ((c.routes[i]?.map (·.id)).getD "")) rfl
            (by rw [hattempt]; rfl)
          rw [hattempt] at hfinds
          refine ⟨fun _ h => ?_, fun _ => hfinds⟩
          rcases h with htimeout | ⟨hfailed, -⟩
          · cases htimeout
          · cases hfailed
      | error e =>
          rcases attempt_cases hundone (.relay i) hattempt with
            ⟨hgo, hfailed⟩ | ⟨hstop, hanswered⟩ | rfl
          · -- the call goes on to the next route
            simp only [hgo, if_true]
            have hresting : ∀ route, (walkRoutes redactText request exchange now
                relays (c.markRoute i false now)).client.routes[i]? = some route →
                  route.resting now = true := by
              intro route hroute
              rw [walkRoutes_other hi] at hroute
              exact markRoute_self hroute
            rw [findsRoute_onward hfailed hresting,
              show c.agentToken = (c.markRoute i false now).agentToken from rfl,
              ih hnodup]
            rw [hattempt] at hfailed
            constructor
            · intro hrest h
              rcases h with htimeout | ⟨-, h⟩
              · cases htimeout
                cases hgo
              · exact hrest h
            · exact fun h hrest => h (.inr ⟨hfailed, hrest⟩)
          · -- the request was refused, over a route that is fine
            simp only [hstop, Bool.false_eq_true, if_false]
            have hfinds := @findsRoute_first now
              (fun hop => doAt redactText c.agentToken request (exchange hop)) i
              relays c (c.markRoute i true now) rfl hanswered
            rw [hattempt] at hfinds hanswered
            refine ⟨fun _ h => ?_, fun _ => hfinds⟩
            rcases h with htimeout | ⟨hfailed, -⟩
            · cases htimeout
              cases hanswered
            · rw [hanswered] at hfailed
              cases hfailed
          · -- the attempt timed out, and the call gives up
            refine ⟨fun h => ?_, fun h => absurd (.inl rfl) h⟩
            exfalso
            rcases h.found with ⟨hop, hhop, hanswered, -⟩ | hall
            · obtain rfl := List.mem_singleton.mp hhop
              simp only [hattempt] at hanswered
              cases hanswered
            · have horigin : Hop.origin ∈
                  (i :: relays).map Hop.relay ++ [Hop.origin] := by simp
              rw [← hall] at horigin
              cases List.mem_singleton.mp horigin

end Walk

/-! ## Calls -/

theorem nodup_activeRoutes (c : RelayClient) (now : Int) :
    (c.activeRoutes now).Nodup := by
  rw [RelayClient.activeRoutes]
  split
  · exact List.nodup_range.filter _
  · exact List.nodup_nil

/-- A call finds a live route if and only if no active route times out before
one has answered. -/
theorem call_finds_route_iff {redactText : String → String}
    {request : CallRequest} {exchange : Hop → Exchange} {now : Int}
    {c : RelayClient} (hundone : Undone exchange) :
    FindsRoute (c.call redactText request exchange now)
        (fun hop => doAt redactText c.agentToken request (exchange hop))
        (c.relaysFor request now) now ↔
      ¬ TimesOutFirst
        (fun hop => doAt redactText c.agentToken request (exchange hop))
        (c.relaysFor request now) := by
  rw [RelayClient.call, RelayClient.relaysFor]
  split
  · exact walkRoutes_finds_iff hundone (nodup_activeRoutes c now)
  · refine ⟨fun _ => timesOutFirst_nil, fun _ => ⟨.inr rfl, fun i hi => ?_⟩⟩
    cases List.mem_singleton.mp hi

/-! ## A relay that hangs -/

def oneRelay : RelayClient where
  agentToken := "token"
  routes := [⟨"relay-1", "https://relay.example", 0, none⟩]
  routesExpireAt := 100
  lastRoute := "relay-1"

def heartbeatCall : CallRequest := ⟨"POST", "/api/v1/heartbeat", true, true⟩

/-- The relay does not answer within the client's own timeout; the origin
would. -/
def hangingRelay : Hop → Exchange
  | .relay _ => .broken .clientTimeout
  | .origin => .response 200 "{}" none

/-- The relay refuses connections. -/
def deadRelay : Hop → Exchange
  | .relay _ => .broken .transport
  | .origin => .response 200 "{}" none

theorem hanging_relay_ends_call :
    Undone hangingRelay ∧
    (oneRelay.call id heartbeatCall hangingRelay 10).hops = [.relay 0] ∧
    (oneRelay.call id heartbeatCall hangingRelay 10).client.activeRoutes 10 =
      [0] ∧
    ¬ FindsRoute (oneRelay.call id heartbeatCall hangingRelay 10)
      (fun hop => doAt id "token" heartbeatCall (hangingRelay hop))
      (oneRelay.relaysFor heartbeatCall 10) 10 := by
  have hhops : (oneRelay.call id heartbeatCall hangingRelay 10).hops =
      [.relay 0] := by decide +kernel
  have hrelays : oneRelay.relaysFor heartbeatCall 10 = [0] := by decide +kernel
  refine ⟨?_, hhops, by decide +kernel, fun h => ?_⟩
  · intro hop why h
    cases hop with
    | relay i =>
        rcases h with h | ⟨_, _, h⟩
        · cases h
          exact ⟨nofun, nofun⟩
        · cases h
    | origin => rcases h with h | ⟨_, _, h⟩ <;> cases h
  · rcases h.found with ⟨hop, hhop, hanswered, -⟩ | hall
    · rw [hhops] at hhop
      obtain rfl := List.mem_singleton.mp hhop
      cases hanswered
    · rw [hhops, hrelays] at hall
      cases hall

theorem call_finds_route_iff_dead :
    FindsRoute (oneRelay.call id heartbeatCall deadRelay 10)
      (fun hop => doAt id "token" heartbeatCall (deadRelay hop))
      (oneRelay.relaysFor heartbeatCall 10) 10 := by
  have hrelays : oneRelay.relaysFor heartbeatCall 10 = [0] := by decide +kernel
  refine (@call_finds_route_iff id heartbeatCall deadRelay 10 oneRelay ?_).mpr ?_
  · intro hop why h
    cases hop with
    | relay i =>
        rcases h with h | ⟨_, _, h⟩
        · cases h
          exact ⟨nofun, nofun⟩
        · cases h
    | origin => rcases h with h | ⟨_, _, h⟩ <;> cases h
  · rw [hrelays, timesOutFirst_cons]
    intro h
    rcases h with h | ⟨-, h⟩
    · cases h
    · exact timesOutFirst_nil h

end NodeLink.Proofs.RelayFailover
