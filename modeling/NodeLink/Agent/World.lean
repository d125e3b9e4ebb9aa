import NodeLink.Agent.Runner

/-!
# The world the agent runs in

The journal file, a clock that never goes backwards, and logs of what the
agent has done: processes started and finished, results sent and
acknowledged, commands received, and every content the journal file has had.
The logs only record; no program reads them.

A save that reports an error may have replaced the file all the same, and a
crash during a save may come before or after the replacement. What a server
answers is arbitrary here, the keys it can make the agent trust excepted.
-/

namespace NodeLink.Agent

open Lib

structure AgentWorld where
  disk : SeenStore
  clock : Nat
  started : List Command := []
  finished : List (Command × ExecutionResult) := []
  received : List Command := []
  notices : List (List (String × Option Int)) := []
  sent : List (String × CommandResult) := []
  acked : List (String × CommandResult) := []
  saved : List (List Command × SeenStore) := []

namespace AgentWorld

/-- The file replaced, with the processes started by then. -/
def replaceFile (w : AgentWorld) (entries : SeenStore) : AgentWorld :=
  { w with disk := entries, saved := (w.started, entries) :: w.saved }

def start (w : AgentWorld) (cmd : Command) : AgentWorld :=
  { w with started := cmd :: w.started }

def finish (w : AgentWorld) (cmd : Command) (res : ExecutionResult) :
    AgentWorld :=
  { w with started := cmd :: w.started, finished := (cmd, res) :: w.finished }

def tick (w : AgentWorld) (reading : Nat) : AgentWorld :=
  { w with clock := reading }

def notify (w : AgentWorld) (notices : List (String × Option Int)) :
    AgentWorld :=
  { w with notices := notices :: w.notices }

def receive (w : AgentWorld) (cmds : List Command) : AgentWorld :=
  { w with received := cmds ++ w.received }

def send (w : AgentWorld) (id : String) (result : CommandResult) : AgentWorld :=
  { w with sent := (id, result) :: w.sent }

def ack (w : AgentWorld) (id : String) (result : CommandResult) : AgentWorld :=
  { w with acked := (id, result) :: w.acked }

end AgentWorld

section World

variable {Key : Type} (trusts : TrustedKeys Key → Prop)

/-- An action that completes. -/
def agentDoes (w : AgentWorld) :
    (o : AgentOp) → AgentOp.Ans Key o → AgentWorld → Prop
  | .now, (reading : Nat), w' => w.clock ≤ reading ∧ w' = w.tick reading
  | .identity, identity, w' => trusts identity.keys ∧ w' = w
  | .load, loaded, w' => (loaded = none ∨ loaded = some w.disk) ∧ w' = w
  | .save entries, (ok : Bool), w' =>
    w' = w.replaceFile entries ∨ (ok = false ∧ w' = w)
  | .heartbeat notices, reply, w' =>
    match reply with
    | .ok keys cmds => trusts keys ∧ w' = (w.notify notices).receive cmds
    | _ => w' = w.notify notices
  | .report id result, (ok : Bool), w' =>
    w' = if ok then (w.send id result).ack id result else w.send id result
  | .execute cmd, res, w' => w' = w.finish cmd res

/-- What a crash in the middle of an action may leave. -/
def agentTorn (w : AgentWorld) : AgentOp → AgentWorld → Prop
  | .save entries, w' => w' = w.replaceFile entries
  | .heartbeat notices, w' => w' = w.notify notices
  | .report id result, w' => w' = w.send id result
  | .execute cmd, w' => w' = w.start cmd
  | _, _ => False

def agentWorld : Lib.World AgentOp (AgentOp.Ans Key) AgentWorld where
  does := agentDoes trusts
  torn := agentTorn

end World

/-- Who signs commands: the keys it holds and the envelopes it has signed.
Canonical bytes that verify under one of its keys are those of an envelope
it has signed, and it never signs two envelopes with one command id or one
nonce but different expiry times. -/
structure Signer {Key : Type} (ed25519Verify : Key → Bytes → Bytes → Bool) where
  owns : Key → Prop
  signed : Envelope → Prop
  unforgeable : ∀ {key e msg sig}, owns key → canonicalCommandBytes e = .ok msg →
    ed25519Verify key msg sig = true →
    ∃ e', signed e' ∧ canonicalCommandBytes e' = .ok msg
  one_expiry : ∀ {e e'}, signed e → signed e' →
    e.commandID = e'.commandID ∨ e.nonce = e'.nonce → e.expiresAt = e'.expiresAt

/-- Keys that are all the signer's. -/
def Signer.trusts {Key : Type} {ed25519Verify : Key → Bytes → Bytes → Bool}
    (sg : Signer ed25519Verify) (keys : TrustedKeys Key) : Prop :=
  sg.owns keys.pub ∧ ∀ entry ∈ keys.pubKeys, sg.owns entry.2

/-- Any number of steps of an agent that trusts the signer's keys. -/
def AgentRun {Key : Type} {ed25519Verify : Key → Bytes → Bytes → Bool}
    (sg : Signer ed25519Verify) :
    AgentWorld × Proc AgentOp (AgentOp.Ans Key) (Session Key) →
      AgentWorld × Proc AgentOp (AgentOp.Ans Key) (Session Key) → Prop :=
  (agentMachine ed25519Verify).Run (agentWorld sg.trusts)

end NodeLink.Agent
