import NodeLink.Lib.RowTxn
import NodeLink.Server.Delivery

/-!
# Requests that commit later than they read

`api/agents.py` and `core/database.py`: one session for each request, whose
commit comes after the handler is done. The rows a heartbeat has been told
about, and the row of an upload, are held from the read on; the rows a
heartbeat hands out or a revocation expires are not. What the session commits
of a row are the columns that differ from the row as it was read.

A request may be handled long after the agent has stopped waiting for it.
-/

namespace NodeLink.Server

open Lib Agent

/-- What a commit means to others than the table. -/
inductive ServerNote where
  | handedOut (notices : List (String × Option Int)) (cmds : List Command)
  | accepted (id : String) (r : CommandResult)
  | revoked

abbrev CommandTxn := RowTxn String CommandRow ServerNote

abbrev CommandWrite := RowWrite String CommandRow

/-- The columns of `new` that differ from the row as it was read. -/
def flushRow (read new row : CommandRow) : CommandRow :=
  { row with
    status := if new.status = read.status then row.status else new.status
    dispatchedAt :=
      if new.dispatchedAt = read.dispatchedAt then row.dispatchedAt
      else new.dispatchedAt
    agentCompletedAt :=
      if new.agentCompletedAt = read.agentCompletedAt then row.agentCompletedAt
      else new.agentCompletedAt }

/-- The update of a row that was loaded and changed. -/
def flushed (id : String) (read new : CommandRow) : CommandWrite where
  key := id
  read := read
  guard := fun _ => true
  edit := flushRow read new

/-- The rows of a table that `p` holds of. -/
def rowsWhere (p : String → CommandRow → Bool) (table : CommandTable) :
    List (String × CommandRow) :=
  (table.entries.map fun e => (e.1, e.2)).filter fun e => p e.1 e.2

/-! ## Heartbeats -/

/-- The row is one the notices are about. -/
def noticed (agentID : String) (notices : List (String × Option Int))
    (id : String) (row : CommandRow) : Bool :=
  decide (row.agentID = agentID) && row.status.acceptsResults
    && (notices.lookup id).isSome

/-- The rows that are marked as finished by the agent. -/
def noticeWrites (agentID : String) (notices : List (String × Option Int))
    (table : CommandTable) : List CommandWrite :=
  (rowsWhere (noticed agentID notices) table).map fun e =>
    flushed e.1 e.2 (notePending agentID notices e.1 e.2)

/-- The rows that are handed out or have expired. -/
def handOutWrites (changed : List (String × CommandRow))
    (table : CommandTable) : List CommandWrite :=
  changed.filterMap fun e =>
    (table.lookup e.1).map fun row => flushed e.1 row e.2

/-- What the loop over the deliverable rows changes. The session sees the
notices' rows as it has changed them. -/
def heartbeatChanges (settings : Settings) (agentID version : String)
    (now : Int) (notices : List (String × Option Int)) (table : CommandTable) :
    List (String × CommandRow) :=
  handOut now (max 1 settings.maxCommandsPerHeartbeat)
    (selectDeliverable agentID version
      (now - 1000000 * (max 1 settings.commandRedeliverySeconds : Nat))
      (StrMap.mapValues (notePending agentID notices) table))

/-- `heartbeat`, as a transaction. -/
def heartbeatTxn (settings : Settings) (agentID : String)
    (trust : AgentTrustState) (now : Int) (body : HeartbeatIn)
    (table : CommandTable) : CommandTxn :=
  if body.valid = false ∨ trust = .revoked then {}
  else if trust = .quarantined then
    { inserts := [.handedOut body.pendingResults []] }
  else
    match selectCommandEnvelopeVersion body.supportedVersions with
    | none =>
      { held := (noticeWrites agentID body.pendingResults table).map (·.key)
        writes := noticeWrites agentID body.pendingResults table
        inserts := [.handedOut body.pendingResults []] }
    | some version =>
      { held := (noticeWrites agentID body.pendingResults table).map (·.key)
        writes := noticeWrites agentID body.pendingResults table
          ++ handOutWrites (heartbeatChanges settings agentID version now
            body.pendingResults table) table
        inserts := [.handedOut body.pendingResults
          (((heartbeatChanges settings agentID version now body.pendingResults
            table).filter fun e => decide (e.2.status = .dispatched)).map
              commandOut)] }

/-! ## Uploads and revocations -/

/-- `submit_result`, as a transaction: the row is held. A refused upload is
rolled back. -/
def submitTxn (agentID : String) (trust : AgentTrustState) (now : Int)
    (commandID : String) (r : CommandResult) (table : CommandTable) :
    CommandTxn :=
  if trust = .revoked then {}
  else if (ResultBody.ofWire r).valid = false then {}
  else if trust ≠ .active then {}
  else
    match (table.lookup commandID).filter fun row =>
        decide (row.agentID = agentID) with
    | none => {}
    | some row =>
      if row.status.recorded = true then
        if row.sameResult (ResultBody.ofWire r) = true then
          { held := [commandID], inserts := [.accepted commandID r] }
        else {}
      else if row.status.acceptsResults = false then {}
      else
        { held := [commandID]
          writes := [{
            key := commandID, read := row, guard := fun _ => true
            edit := (·.record now (ResultBody.ofWire r)) }]
          inserts := [.accepted commandID r] }

/-- `revoke_agent`, as a transaction: the rows it expires are not held. -/
def revokeTxn (agentID : String) (table : CommandTable) : CommandTxn where
  writes := (rowsWhere (fun _ row => decide (row.agentID = agentID)
      && (decide (row.status = .queued) || row.status.acceptsResults))
    table).map fun e => flushed e.1 e.2 (expireOnRevoke agentID e.2)
  inserts := [.revoked]

/-! ## The server -/

structure LateServer where
  table : CommandTable := ∅
  trust : AgentTrustState := .active
  notes : List ServerNote := []
  txns : Nat → CommandTxn := fun _ => {}

namespace LateServer

/-- The rows and the transactions. -/
def store (sv : LateServer) : RowStore String CommandRow ServerNote :=
  ⟨sv.table.lookup, sv.notes, sv.txns⟩

def newCommand (sv : LateServer) (id : String) (row : CommandRow) :
    LateServer :=
  { sv with table := sv.table.insert id row }

def read (sv : LateServer) (t : Nat) (txn : CommandTxn) : LateServer :=
  { sv with txns := Function.update sv.txns t txn }

def rollback (sv : LateServer) (t : Nat) : LateServer :=
  { sv with txns := Function.update sv.txns t {} }

def commit (sv : LateServer) (t : Nat) : LateServer where
  table := StrMap.mapValues (fun id row =>
    (((sv.txns t).writes.find? fun e => decide (e.key = id)).map
      (·.edit row)).getD row) sv.table
  trust := if (sv.txns t).inserts.any fun | .revoked => true | _ => false then
      .revoked
    else sv.trust
  notes := sv.notes ++ (sv.txns t).inserts
  txns := Function.update sv.txns t {}

theorem commit_store (sv : LateServer) (t : Nat) :
    (sv.commit t).store = sv.store.commit t := by
  have htable : (sv.commit t).table.lookup =
      RowStore.written (sv.txns t).writes sv.table.lookup := by
    funext id
    rw [commit, StrMap.lookup_mapValues, RowStore.written]
    split
    · next e he =>
        rw [he]
        rfl
    · next he =>
        simp [he]
  rw [store, htable]
  rfl

end LateServer

section System

variable (settings : Settings) (agentID : String)
variable (may : AgentWorld → LateServer → Nat → Prop)

/-- One step of the server, `w` holding what the agent has sent. `may`
restricts the commits that are considered. -/
inductive LateStep (w : AgentWorld) (sv : LateServer) : LateServer → Prop where
  | dispatch {id owner envelope createdAt expiresAt}
      (hfresh : sv.table.lookup id = none) (huuid : hasNoncePrefix id = false) :
      LateStep w sv
        (sv.newCommand id (queuedRow owner envelope createdAt expiresAt))
  | heartbeat {t now versions notices} (hsent : notices ∈ w.notices)
      (hidle : sv.txns t = {})
      (hreads : sv.store.Reads t (heartbeatTxn settings agentID sv.trust now
        ⟨versions, noticesOfWire notices⟩ sv.table)) :
      LateStep w sv (sv.read t (heartbeatTxn settings agentID sv.trust now
        ⟨versions, noticesOfWire notices⟩ sv.table))
  | submit {t now id r} (hsent : (id, r) ∈ w.sent) (hidle : sv.txns t = {})
      (hreads : sv.store.Reads t
        (submitTxn agentID sv.trust now id r sv.table)) :
      LateStep w sv (sv.read t (submitTxn agentID sv.trust now id r sv.table))
  | revoke {t} (h : sv.trust ≠ .revoked) (hidle : sv.txns t = {})
      (hreads : sv.store.Reads t (revokeTxn agentID sv.table)) :
      LateStep w sv (sv.read t (revokeTxn agentID sv.table))
  | commit {t} (hcommits : sv.store.Commits t) (hmay : may w sv t) :
      LateStep w sv (sv.commit t)
  | rollback {t} : LateStep w sv (sv.rollback t)
  | trust {trust} (h : sv.trust ≠ .revoked) (hkeeps : trust ≠ .revoked) :
      LateStep w sv { sv with trust := trust }

/-- The agent has been told nothing the server did not commit. -/
structure Told (w : AgentWorld) (sv : LateServer) : Prop where
  acks : ∀ p ∈ w.acked, ServerNote.accepted p.1 p.2 ∈ sv.notes
  commands : ∀ cmd ∈ w.received, ∃ notices cmds,
    ServerNote.handedOut notices cmds ∈ sv.notes ∧ cmd ∈ cmds

/-- The agent's world with such a server in it. -/
def lateWorld {Key : Type} (trusts : TrustedKeys Key → Prop) :
    Lib.World AgentOp (AgentOp.Ans Key) (AgentWorld × LateServer) where
  does := fun c o a c' => agentDoes trusts c.1 o a c'.1 ∧
    Relation.ReflTransGen (LateStep settings agentID may (requests c.1 c'.1))
      c.2 c'.2 ∧ Told c'.1 c'.2
  torn := fun c o c' => agentTorn c.1 o c'.1 ∧ c'.2 = c.2

/-- The world while the agent waits: its request is out, or its process
runs. -/
def underway {Key : Type} (w : AgentWorld) :
    Proc AgentOp (AgentOp.Ans Key) (Session Key) → AgentWorld
  | .busy (.act (.heartbeat notices) _) => w.notify notices
  | .busy (.act (.report id result) _) => w.send id result
  | .busy (.act (.execute cmd) _) => w.start cmd
  | _ => w

variable {Key : Type} {ed25519Verify : Key → Bytes → Bytes → Bool}
  (sg : Signer ed25519Verify)

/-- The states of agent, process and server. -/
abbrev LateState (Key : Type) :=
  (AgentWorld × LateServer) × Proc AgentOp (AgentOp.Ans Key) (Session Key)

inductive LateSystemStep : LateState Key → LateState Key → Prop where
  | agent {c c'} (h : (agentMachine ed25519Verify).Step
      (lateWorld settings agentID may sg.trusts) c c') : LateSystemStep c c'
  | server {w sv sv' p}
      (h : LateStep settings agentID may (underway w p) sv sv') :
      LateSystemStep ((w, sv), p) ((w, sv'), p)

/-- Any number of steps of the agent and such a server. -/
def LateRun : LateState Key → LateState Key → Prop :=
  Relation.ReflTransGen (LateSystemStep settings agentID may sg)

end System

end NodeLink.Server
