import NodeLink.Agent.World
import NodeLink.Server.CommandTable

/-!
# The agent and the server together

The server handles requests the agent has sent, each of them any number of
times and at any later time, or never. The agent may be told anything the
server has said: a command it is handed was in some heartbeat response, a
result it believes acknowledged was answered with success. Both logs only
record; the server does not read them.

An action of the agent that talks to the server is one step, in which the
server may handle requests between the sending and the answer.
-/

namespace NodeLink.Server

open Lib Agent

structure ServerState where
  table : CommandTable := ∅
  trust : AgentTrustState := .active
  handedOut : List Command := []
  accepted : List (String × CommandResult) := []

namespace ServerState

def newCommand (sv : ServerState) (id : String) (row : CommandRow) :
    ServerState :=
  { sv with table := sv.table.insert id row }

def handle (sv : ServerState) (reply : List Command × CommandTable) :
    ServerState :=
  { sv with table := reply.2, handedOut := reply.1 ++ sv.handedOut }

def submitted (sv : ServerState) (id : String) (r : CommandResult)
    (reply : SubmitReply × CommandTable) : ServerState :=
  { sv with
    table := reply.2
    accepted := if reply.1 = .noContent then (id, r) :: sv.accepted
      else sv.accepted }

def setTrust (sv : ServerState) (agentID : String) (trust : AgentTrustState) :
    ServerState :=
  { sv with
    trust := trust
    table := if trust = .revoked then
        StrMap.mapValues (fun _ => expireOnRevoke agentID) sv.table
      else sv.table }

end ServerState

/-- A row as `dispatch_command` and the scheduler create it. -/
def queuedRow (agentID : String) (envelope : Command) (createdAt : Int)
    (expiresAt : Option Int) : CommandRow where
  agentID := agentID
  envelope := envelope
  createdAt := createdAt
  expiresAt := expiresAt

/-- The notices of a heartbeat as the server reads them. -/
def noticesOfWire (notices : List (String × Option Int)) :
    List (String × Option Int) :=
  notices.map fun n => (n.1, n.2.map (· / 1000))

section System

variable (settings : Settings) (agentID : String)

/-- One request, `w` holding what the agent has sent. Command ids are fresh
UUIDs, which no nonce key is. -/
inductive ServerStep (w : AgentWorld) : ServerState → ServerState → Prop where
  | dispatch {sv id owner envelope createdAt expiresAt}
      (hfresh : sv.table.lookup id = none) (huuid : hasNoncePrefix id = false) :
      ServerStep w sv
        (sv.newCommand id (queuedRow owner envelope createdAt expiresAt))
  | heartbeat {sv now versions notices reply} (hsent : notices ∈ w.notices)
      (h : heartbeat settings agentID sv.trust now
        ⟨versions, noticesOfWire notices⟩ sv.table = some reply) :
      ServerStep w sv (sv.handle reply)
  | submit {sv now id r} (hsent : (id, r) ∈ w.sent) :
      ServerStep w sv (sv.submitted id r
        (submitResult agentID sv.trust now id (ResultBody.ofWire r) sv.table))
  | trust {sv trust} (h : sv.trust ≠ .revoked) :
      ServerStep w sv (sv.setTrust agentID trust)

/-- What has been sent by the time an action is answered. -/
def requests (w w' : AgentWorld) : AgentWorld :=
  { w' with acked := w.acked, received := w.received }

/-- The agent has been told nothing the server did not say. -/
structure Answered (w : AgentWorld) (sv : ServerState) : Prop where
  acks : ∀ p ∈ w.acked, p ∈ sv.accepted
  commands : ∀ cmd ∈ w.received, cmd ∈ sv.handedOut

/-- The agent's world with the server in it. -/
def deliveryWorld {Key : Type} (trusts : TrustedKeys Key → Prop) :
    Lib.World AgentOp (AgentOp.Ans Key) (AgentWorld × ServerState) where
  does := fun c o a c' => agentDoes trusts c.1 o a c'.1 ∧
    Relation.ReflTransGen (ServerStep settings agentID (requests c.1 c'.1))
      c.2 c'.2 ∧ Answered c'.1 c'.2
  torn := fun c o c' => agentTorn c.1 o c'.1 ∧ c'.2 = c.2

variable {Key : Type} {ed25519Verify : Key → Bytes → Bytes → Bool}
  (sg : Signer ed25519Verify)

/-- The states of agent, process and server. -/
abbrev DeliveryState (Key : Type) :=
  (AgentWorld × ServerState) × Proc AgentOp (AgentOp.Ans Key) (Session Key)

inductive DeliveryStep : DeliveryState Key → DeliveryState Key → Prop where
  | agent {c c'} (h : (agentMachine ed25519Verify).Step
      (deliveryWorld settings agentID sg.trusts) c c') : DeliveryStep c c'
  | server {w sv sv' p} (h : ServerStep settings agentID w sv sv') :
      DeliveryStep ((w, sv), p) ((w, sv'), p)

/-- Any number of steps of the agent and the server. -/
def DeliveryRun : DeliveryState Key → DeliveryState Key → Prop :=
  Relation.ReflTransGen (DeliveryStep settings agentID sg)

end System

end NodeLink.Server
