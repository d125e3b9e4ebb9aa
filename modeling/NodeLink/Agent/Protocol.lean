import NodeLink.Agent.World

/-!
# The journal protocol

What the agent is meant to do, without the programs that do it: the phases
a process goes through with its journal, the edits of the journal each phase
allows, and what may happen between two edits. `Proofs/AgentRefinement`
shows that the agent's programs do nothing else, so what holds of every run
of this protocol holds of every run of the agent.

* `loaded` - the file has been read, what a crash interrupted is unresolved;
* `quiet` - between commands;
* `reserved` - both replay keys of a command are durable;
* `armed` - the command's execution is durable, its process may start;
* `ran` - the process has ended, its result is not durable.
-/

namespace NodeLink.Agent

open Lib

inductive Phase where
  | down
  | loaded (s : SeenStore)
  | quiet (s : SeenStore)
  | reserved (s : SeenStore) (cmd : Command)
  | armed (s : SeenStore) (cmd : Command)
  | ran (s : SeenStore) (cmd : Command) (res : ExecutionResult)

/-- The map in memory. -/
def Phase.map : Phase → SeenStore
  | .down => ∅
  | .loaded s => s
  | .quiet s => s
  | .reserved s _ => s
  | .armed s _ => s
  | .ran s _ _ => s

/-- The map with a result recorded for a command id. -/
def SeenStore.recorded (s : SeenStore) (id : String) (expiry : Int)
    (result : CommandResult) : SeenStore :=
  s.insert id (SeenStore.SeenEntry.withResult
    ((s.lookup id).getD SeenEntry.zero) expiry result)

/-- A result with the time the process ended. -/
def CommandResult.completedAt (res : ExecutionResult) (reading : Nat) :
    CommandResult :=
  { res with agentCompletedAt := some (wallTime reading) }

namespace Protocol

variable {Key : Type} {ed25519Verify : Key → Bytes → Bytes → Bool}

/-- The command is one the signer has signed, as far as its replay keys and
its expiry time go. -/
def SignedBy (sg : Signer ed25519Verify) (cmd : Command) : Prop :=
  ∃ e, sg.signed e ∧ e.commandID = cmd.id ∧ e.nonce = cmd.nonce ∧
    e.expiresAt = cmd.expiresAt

/-- The signed expiry of a command, as the window check reads it. -/
def signedExpiry (cmd : Command) : Int :=
  match parseCommandTime "expires_at" cmd.expiresAt with
  | .ok st => Agent.Stamp.instant st
  | .error _ => 0

/-- A result may be recorded: the entry holds none that may not be
overwritten, and gets an expiry that is not the zero time. -/
structure Recordable (s : SeenStore) (id : String) (expiry : Int) : Prop where
  unsettled :
    SeenStore.SeenEntry.settled ((s.lookup id).getD SeenEntry.zero) = false
  expires : ((s.lookup id).getD SeenEntry.zero).expiry ≠ zeroTime ∨
    zeroTime < expiry

/-- The edits of the journal that record no result: the phase they are made
in and the one a save that goes through leads to. -/
inductive Edit (sg : Signer ed25519Verify) (w : AgentWorld) :
    Phase → Phase → Prop where
  | rewrite {s} : Edit sg w (.quiet s) (.quiet s)
  | acknowledge {s : SeenStore} {id entry result}
      (hlook : s.lookup id = some entry)
      (hstate : entry.state = some .resultPending)
      (hresult : entry.result = some result)
      (hacked : (id, result) ∈ w.acked) :
      Edit sg w (.quiet s)
        (.quiet (s.insert id { entry with state := some .acknowledged }))
  | requeue {s : SeenStore} {id entry result}
      (hlook : s.lookup id = some entry)
      (hstate : entry.state = some .acknowledged)
      (hresult : entry.result = some result) :
      Edit sg w (.quiet s)
        (.quiet (s.insert id { entry with state := some .resultPending }))
  | reserve {s : SeenStore} {cmd : Command} (hreceived : cmd ∈ w.received)
      (hsigned : SignedBy sg cmd)
      (hlive : wallTime w.clock < signedExpiry cmd)
      (hid : s.lookup cmd.id = none)
      (hnonce : s.lookup (nonceKey cmd.nonce) = none) :
      Edit sg w (.quiet s)
        (.reserved (s.reserved cmd.id cmd.nonce (signedExpiry cmd)) cmd)
  | arm {s : SeenStore} {cmd : Command} {entry}
      (hlook : s.lookup cmd.id = some entry)
      (hstate : entry.state = some .reserved) :
      Edit sg w (.reserved s cmd)
        (.armed (s.insert cmd.id { entry with state := some .executing }) cmd)

/-- The edits that record results, all of them ending between commands. -/
inductive Records (w : AgentWorld) : Phase → SeenStore → Prop where
  | recover {s : SeenStore} (h : s.interrupted = true) :
      Records w (.loaded s) s.recovered
  | refuse {s : SeenStore} {cmd : Command} {expiry reason}
      (hreceived : cmd ∈ w.received)
      (hrecord : Recordable s cmd.id expiry) :
      Records w (.quiet s) (s.recorded cmd.id expiry (refusal reason))
  | abandon {s : SeenStore} {cmd : Command} {expiry reason}
      (hrecord : Recordable s cmd.id expiry) :
      Records w (.reserved s cmd) (s.recorded cmd.id expiry (refusal reason))
  | record {s : SeenStore} {cmd : Command} {res expiry reading}
      (hrecord : Recordable s cmd.id expiry) :
      Records w (.ran s cmd res)
        (s.recorded cmd.id expiry (CommandResult.completedAt res reading))

/-- One step. A save that goes through replaces the file and the phase. One
that reports an error, or is cut short, may have replaced the file all the
same: the process goes on from the map it had, unless a result was to be
recorded, when it stops. -/
inductive Step (sg : Signer ed25519Verify) :
    AgentWorld × Phase → AgentWorld × Phase → Prop where
  | tick {w ph reading} (h : w.clock ≤ reading) :
      Step sg (w, ph) (w.tick reading, ph)
  | halt {w ph} : Step sg (w, ph) (w, .down)
  | load {w} : Step sg (w, .down) (w, .loaded w.disk)
  | undisturbed {w s} (h : s.interrupted = false) :
      Step sg (w, .loaded s) (w, .quiet s)
  | saved {w a b} (h : Edit sg w a b) : Step sg (w, a) (w.replaceFile b.map, b)
  | unsaved {w a b} (h : Edit sg w a b) :
      Step sg (w, a) (w.replaceFile b.map, a)
  | recorded {w a s} (h : Records w a s) :
      Step sg (w, a) (w.replaceFile s, .quiet s)
  | unrecorded {w a s} (h : Records w a s) :
      Step sg (w, a) (w.replaceFile s, .down)
  | prune {w s} :
      Step sg (w, .quiet s) (w, .quiet (SeenStore.pruned (wallTime w.clock) s))
  | send {w} {s : SeenStore} {id entry result}
      (hlook : s.lookup id = some entry)
      (hresult : entry.result = some result) :
      Step sg (w, .quiet s) (w.send id result, .quiet s)
  | answered {w ph id result} (h : (id, result) ∈ w.sent) :
      Step sg (w, ph) (w.ack id result, ph)
  | beat {w s} :
      Step sg (w, .quiet s) (w.notify (pendingResultNotices s), .quiet s)
  | receive {w ph cmds} : Step sg (w, ph) (w.receive cmds, ph)
  | start {w s cmd} : Step sg (w, .armed s cmd) (w.start cmd, .down)
  | finish {w s cmd res} :
      Step sg (w, .armed s cmd) (w.finish cmd res, .ran s cmd res)

/-- Any number of steps. -/
def Run (sg : Signer ed25519Verify) :
    AgentWorld × Phase → AgentWorld × Phase → Prop :=
  Relation.ReflTransGen (Step sg)

end Protocol

end NodeLink.Agent
