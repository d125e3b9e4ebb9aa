import NodeLink.Server.Credentials

/-!
# The agent's bearer and the server's slots together

`internal/service/runner.go`: when the agent renews, that it saves an
identity before it adopts it, and what a save that reports an error may have
left. A request is on its way from the moment it is sent: the server may
handle it at any later time, any number of times, or never, and several at
once. An answer is adopted only while the agent waits for it.

Other changes of the identity, such as a new bundle of signing keys, save the
bearer in memory along with them.
-/

namespace NodeLink.Server

open Lib

/-! ## The agent -/

/-- The credential fields of `config.Identity`, timestamps as the instants
they parse to. -/
structure StoredIdentity where
  agentToken : String
  credentialExpiresAt : Option Int := none
  credentialObtainedAt : Option Int := none
  deriving DecidableEq

/-- `credentialRenewDue` -/
def credentialRenewDue (id : StoredIdentity) (now : Int) : Bool :=
  match id.credentialExpiresAt with
  | none => false
  | some expiresAt =>
    match id.credentialObtainedAt with
    | none => decide (now < expiresAt)
    | some obtained =>
      if obtained < expiresAt then
        !decide (now < obtained + (expiresAt - obtained) / 2)
      else decide (now < expiresAt)

/-- A running agent: the identity in memory, and the nonce of the rotation
whose answer it waits for. -/
structure CredentialSession where
  identity : StoredIdentity
  waiting : Option String := none
  deriving DecidableEq

/-- How a save of the identity ends: without error, or with one before or
after the file is replaced. -/
inductive SaveEnd where
  | saved
  | failed
  | failedAfterRename
  deriving DecidableEq

/-- The identity an answer makes. -/
def Rotation.identity (r : Rotation) (obtainedAt : Int) : StoredIdentity where
  agentToken := r.agentToken
  credentialExpiresAt := some r.credentialExpiresAt
  credentialObtainedAt := some obtainedAt

/-- `persistAndAdoptCredential`: the file and the identity in memory after
it. -/
def persistAndAdoptCredential (file memory new : StoredIdentity) :
    SaveEnd → StoredIdentity × StoredIdentity
  | .saved => (new, new)
  | .failed => (file, memory)
  | .failedAfterRename => (new, memory)

/-! ## The server -/

structure CredentialServer where
  row : CredentialRow
  rotations : List Rotation := []
  txns : Nat → CredentialTxn := fun _ => {}
  generated : List String := []

namespace CredentialServer

/-- The row and the transactions. -/
def store (sv : CredentialServer) : RowStore Unit CredentialRow Rotation :=
  ⟨fun _ => some sv.row, sv.rotations, sv.txns⟩

/-- The handler of a request has run, and made a bearer. -/
def serve (sv : CredentialServer) (t : Nat) (txn : CredentialTxn)
    (plaintext : String) : CredentialServer :=
  { sv with
    txns := Function.update sv.txns t txn
    generated := plaintext :: sv.generated }

def commit (sv : CredentialServer) (t : Nat) : CredentialServer :=
  { sv with
    row := ((sv.txns t).writes.head?.map (·.edit sv.row)).getD sv.row
    rotations := sv.rotations ++ (sv.txns t).inserts
    txns := Function.update sv.txns t {} }

def rollback (sv : CredentialServer) (t : Nat) : CredentialServer :=
  { sv with txns := Function.update sv.txns t {} }

section Lemmas

variable {sv : CredentialServer} {t u : Nat} {txn : CredentialTxn}
  {plaintext : String}

@[simp] theorem serve_self : (sv.serve t txn plaintext).txns t = txn :=
  Function.update_self ..

@[simp] theorem serve_ne (h : u ≠ t) :
    (sv.serve t txn plaintext).txns u = sv.txns u :=
  Function.update_of_ne h ..

@[simp] theorem commit_self : (sv.commit t).txns t = {} :=
  Function.update_self ..

@[simp] theorem commit_ne (h : u ≠ t) :
    (sv.commit t).txns u = sv.txns u :=
  Function.update_of_ne h ..

@[simp] theorem rollback_self : (sv.rollback t).txns t = {} :=
  Function.update_self ..

@[simp] theorem rollback_ne (h : u ≠ t) :
    (sv.rollback t).txns u = sv.txns u :=
  Function.update_of_ne h ..

end Lemmas

end CredentialServer

/-! ## Both -/

structure CredentialState where
  server : CredentialServer
  clock : Int
  file : StoredIdentity
  session : Option CredentialSession := none
  requests : List RotationRequest := []

section System

variable (settings : CredentialSettings)
variable (hashToken credentialFingerprint : String → String)
variable (may : CredentialState → Nat → Prop)

/-- One step of the agent, the server or the clock. `may` restricts the
commits that are considered. -/
inductive CredentialStep (st : CredentialState) : CredentialState → Prop where
  | tick {later} (h : st.clock ≤ later) :
      CredentialStep st { st with clock := later }
  | boot (h : st.session = none) :
      CredentialStep st { st with session := some ⟨st.file, none⟩ }
  | crash : CredentialStep st { st with session := none }
  | send {s endpoint nonce now} (hs : st.session = some s)
      (hfree : s.waiting = none)
      (hdue : endpoint = .renew → credentialRenewDue s.identity now = true)
      (hnonce : ∀ request ∈ st.requests, request.rotationNonce ≠ nonce) :
      CredentialStep st { st with
        session := some { s with waiting := some nonce }
        requests := ⟨endpoint, s.identity.agentToken, nonce⟩ :: st.requests }
  | giveUp {s} (hs : st.session = some s) :
      CredentialStep st { st with session := some { s with waiting := none } }
  | adopt {s r now save} (hs : st.session = some s)
      (hanswer : r ∈ st.server.rotations)
      (hwaits : s.waiting = some r.rotationNonce) :
      CredentialStep st { st with
        file := (persistAndAdoptCredential st.file s.identity
          (r.identity now) save).1
        session := some ⟨(persistAndAdoptCredential st.file s.identity
          (r.identity now) save).2, none⟩ }
  | saveIdentity {s} (hs : st.session = some s) :
      CredentialStep st { st with file := s.identity }
  | serve {t request seen now plaintext} (hsent : request ∈ st.requests)
      (hidle : st.server.txns t = {}) (hseen : st.clock ≤ seen)
      (hnow : seen ≤ now)
      (hfresh : ∀ other ∈ st.server.generated,
        hashToken other ≠ hashToken plaintext)
      (hreads : st.server.store.Reads t (credentialTxn settings hashToken
        credentialFingerprint st.server.row request seen now plaintext)) :
      CredentialStep st { st with
        clock := now
        server := st.server.serve t (credentialTxn settings hashToken
          credentialFingerprint st.server.row request seen now plaintext)
          plaintext }
  | commit {t} (hcommits : st.server.store.Commits t) (hmay : may st t) :
      CredentialStep st { st with server := st.server.commit t }
  | rollback {t} : CredentialStep st { st with server := st.server.rollback t }

/-- Any number of steps. -/
def CredentialRun : CredentialState → CredentialState → Prop :=
  Relation.ReflTransGen
    (CredentialStep settings hashToken credentialFingerprint may)

end System

/-- The agent has just been enrolled: its file holds the bearer the server
has stored. -/
structure Enrolled (hashToken : String → String) (st : CredentialState) :
    Prop where
  token : st.server.row.tokenHash = hashToken st.file.agentToken
  previous : st.server.row.previousTokenHash = none
  active : st.server.row.trustState = .active
  rotations : st.server.rotations = []
  txns : st.server.txns = fun _ => {}
  generated : st.server.generated = [st.file.agentToken]
  session : st.session = none
  requests : st.requests = []

/-- Until when a bearer can be recovered with: the overlap after the last
rotation that was requested with it, or else the reattach window after its
expiry. `none` is no limit. -/
def recoveryDeadline (settings : CredentialSettings) (enrolled : Option Int)
    (rotations : List Rotation) (token : String) : Option Int :=
  match rotations.reverse.find? fun r => decide (r.token = token) with
  | some r => some r.overlapExpiresAt
  | none =>
    let issued := rotations.reverse.find? fun r : Rotation =>
      decide (r.agentToken = token)
    (match issued with
      | some r => some r.credentialExpiresAt
      | none => enrolled).map
        (· + seconds settings.agentCredentialReattachWindowSeconds)

end NodeLink.Server
