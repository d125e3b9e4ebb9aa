import NodeLink.Lib.RowTxn
import NodeLink.Server.CommandTable

/-!
# Agent credentials

`api/deps.py` and `api/agents.py`: how a bearer is accepted on one of two
slots, and how renewal and reattachment rotate it. Only hashes of bearers are
stored. The row is the one of a single agent; no other row of the table holds
one of its bearers. Reattachment reads the row under its lock, renewal does
not, and either writes back the columns that differ from the row as it was
read.
-/

namespace NodeLink.Server

open Lib

structure CredentialSettings where
  agentCredentialLifetimeSeconds : Nat := 86400
  agentCredentialOverlapSeconds : Nat := 600
  agentCredentialReattachWindowSeconds : Nat := 2592000

/-- A number of seconds as a duration. -/
def seconds (n : Nat) : Int := 1000000 * n

/-- The credential columns of an agent's row. -/
structure CredentialRow where
  tokenHash : String
  credentialFingerprint : Option String := none
  credentialIssuedAt : Option Int := none
  credentialExpiresAt : Option Int := none
  previousTokenHash : Option String := none
  previousTokenExpiresAt : Option Int := none
  credentialGeneration : Int := 1
  lastRotationNonce : Option String := none
  lastRenewedAt : Option Int := none
  trustState : AgentTrustState := .active
  deriving DecidableEq

/-- The slot a bearer was accepted on. -/
inductive CredentialMatched where
  | current
  | overlap
  deriving DecidableEq, Repr

inductive CredentialEndpoint where
  | renew
  | reattach
  deriving DecidableEq, Repr

/-- A request to `/agents/credentials/renew` or `/agents/credentials/reattach`,
with the bearer in its header. -/
structure RotationRequest where
  endpoint : CredentialEndpoint
  token : String
  rotationNonce : String
  deriving DecidableEq

/-- What a rotation answers, with the request it answers. -/
structure Rotation where
  token : String
  rotationNonce : String
  agentToken : String
  credentialExpiresAt : Int
  overlapExpiresAt : Int
  credentialGeneration : Int
  deriving DecidableEq

section Credentials

variable (settings : CredentialSettings)
variable (hashToken credentialFingerprint : String → String)

/-! ## Which bearers are accepted -/

/-- The overlap slot, as both dependencies read it. -/
def matchOverlap (row : CredentialRow) (presented : String) (now : Int) :
    Option CredentialMatched :=
  if row.previousTokenHash = some presented then
    match row.previousTokenExpiresAt with
    | none => none
    | some overlapUntil => if now < overlapUntil then some .overlap else none
  else none

/-- `get_current_agent` -/
def getCurrentAgent (row : CredentialRow) (token : String) (now : Int) :
    Option CredentialMatched :=
  if row.trustState = .revoked then none
  else if row.tokenHash = hashToken token then
    match row.credentialExpiresAt with
    | none => some .current
    | some expiresAt => if now < expiresAt then some .current else none
  else matchOverlap row (hashToken token) now

/-- `get_agent_for_credential_reattach` -/
def getAgentForCredentialReattach (row : CredentialRow) (token : String)
    (now : Int) : Option CredentialMatched :=
  if row.trustState = .active then
    if row.tokenHash = hashToken token then
      match row.credentialExpiresAt with
      | none => none
      | some expiresAt =>
        if expiresAt ≤ now ∧ now < expiresAt
            + seconds settings.agentCredentialReattachWindowSeconds then
          some .current
        else none
    else matchOverlap row (hashToken token) now
  else none

def authenticate (row : CredentialRow) (request : RotationRequest) (now : Int) :
    Option CredentialMatched :=
  match request.endpoint with
  | .renew => getCurrentAgent hashToken row request.token now
  | .reattach =>
    getAgentForCredentialReattach settings hashToken row request.token now

/-- The server accepts the bearer: as the current or the overlap credential,
or at the reattach endpoint. -/
def acceptsBearer (row : CredentialRow) (token : String) (now : Int) : Bool :=
  (getCurrentAgent hashToken row token now).isSome ||
    (getAgentForCredentialReattach settings hashToken row token now).isSome

/-! ## Rotation -/

/-- `_rotate_agent_credential`, with the bearer it generates. -/
def rotateAgentCredential (row : CredentialRow) (matched : CredentialMatched)
    (now : Int) (rotationNonce plaintext : String) : CredentialRow :=
  { row with
    previousTokenHash :=
      if matched = .overlap then row.previousTokenHash else some row.tokenHash
    previousTokenExpiresAt :=
      some (now + seconds settings.agentCredentialOverlapSeconds)
    tokenHash := hashToken plaintext
    credentialFingerprint := some (credentialFingerprint plaintext)
    credentialIssuedAt := some now
    credentialExpiresAt :=
      some (now + seconds settings.agentCredentialLifetimeSeconds)
    credentialGeneration := row.credentialGeneration + 1
    lastRotationNonce := some rotationNonce
    lastRenewedAt := some now }

def rotationResponse (row : CredentialRow) (request : RotationRequest)
    (now : Int) (plaintext : String) : Rotation where
  token := request.token
  rotationNonce := request.rotationNonce
  agentToken := plaintext
  credentialExpiresAt :=
    now + seconds settings.agentCredentialLifetimeSeconds
  overlapExpiresAt := now + seconds settings.agentCredentialOverlapSeconds
  credentialGeneration := row.credentialGeneration + 1

/-- A column: written if it differs from what was read. -/
def flushColumn {A : Type} [DecidableEq A] (read new stored : A) : A :=
  if new = read then stored else new

/-- The columns of `new` that differ from the row as it was read. -/
def flushCredential (read new row : CredentialRow) : CredentialRow where
  tokenHash := flushColumn read.tokenHash new.tokenHash row.tokenHash
  credentialFingerprint := flushColumn read.credentialFingerprint
    new.credentialFingerprint row.credentialFingerprint
  credentialIssuedAt := flushColumn read.credentialIssuedAt
    new.credentialIssuedAt row.credentialIssuedAt
  credentialExpiresAt := flushColumn read.credentialExpiresAt
    new.credentialExpiresAt row.credentialExpiresAt
  previousTokenHash := flushColumn read.previousTokenHash
    new.previousTokenHash row.previousTokenHash
  previousTokenExpiresAt := flushColumn read.previousTokenExpiresAt
    new.previousTokenExpiresAt row.previousTokenExpiresAt
  credentialGeneration := flushColumn read.credentialGeneration
    new.credentialGeneration row.credentialGeneration
  lastRotationNonce := flushColumn read.lastRotationNonce
    new.lastRotationNonce row.lastRotationNonce
  lastRenewedAt := flushColumn read.lastRenewedAt
    new.lastRenewedAt row.lastRenewedAt
  trustState := flushColumn read.trustState new.trustState row.trustState

abbrev CredentialTxn := RowTxn Unit CredentialRow Rotation

/-- A rotation, as the transaction of its request. -/
def rotationTxn (row : CredentialRow) (matched : CredentialMatched)
    (request : RotationRequest) (now : Int) (plaintext : String) :
    CredentialTxn where
  held := if request.endpoint = .reattach then [()] else []
  writes := [{
    key := ()
    read := row
    guard := fun _ => true
    edit := flushCredential row (rotateAgentCredential settings hashToken
      credentialFingerprint row matched now request.rotationNonce
      plaintext) }]
  inserts := [rotationResponse settings row request now plaintext]

/-- `renew_agent_credential` and `reattach_agent_credential`: the bearer is
checked at `seen`, the rotation made at `now`. A refused request (401, 409 or
422) is rolled back. -/
def credentialTxn (row : CredentialRow) (request : RotationRequest)
    (seen now : Int) (plaintext : String) : CredentialTxn :=
  if request.rotationNonce.length < 16 ∨ 64 < request.rotationNonce.length then
    {}
  else
    match authenticate settings hashToken row request seen with
    | none => {}
    | some matched =>
      if row.lastRotationNonce = some request.rotationNonce then {}
      else rotationTxn settings hashToken credentialFingerprint row matched
        request now plaintext

end Credentials

/-! ## What is read off a row -/

section Lemmas

variable {settings : CredentialSettings}
  {hashToken credentialFingerprint : String → String} {row : CredentialRow}
  {token : String} {request : RotationRequest} {now : Int}

/-- The bearer is in the slot it is accepted on. -/
def InSlot (hashToken : String → String) (row : CredentialRow)
    (token : String) : CredentialMatched → Prop
  | .current => row.tokenHash = hashToken token
  | .overlap => row.tokenHash ≠ hashToken token ∧
    row.previousTokenHash = some (hashToken token)

theorem matchOverlap_inSlot {matched : CredentialMatched}
    (hne : row.tokenHash ≠ hashToken token)
    (h : matchOverlap row (hashToken token) now = some matched) :
    InSlot hashToken row token matched := by
  rw [matchOverlap] at h
  split at h
  · next hp =>
      split at h
      · cases h
      · split at h
        · obtain rfl := Option.some.inj h
          exact ⟨hne, hp⟩
        · cases h
  · cases h

theorem getCurrentAgent_inSlot {matched : CredentialMatched}
    (h : getCurrentAgent hashToken row token now = some matched) :
    InSlot hashToken row token matched := by
  rw [getCurrentAgent] at h
  split at h
  · cases h
  · split at h
    · next ht =>
        split at h
        · obtain rfl := Option.some.inj h
          exact ht
        · split at h
          · obtain rfl := Option.some.inj h
            exact ht
          · cases h
    · next ht => exact matchOverlap_inSlot ht h

theorem reattach_inSlot {matched : CredentialMatched}
    (h : getAgentForCredentialReattach settings hashToken row token now =
      some matched) : InSlot hashToken row token matched := by
  rw [getAgentForCredentialReattach] at h
  split at h
  · split at h
    · next ht =>
        split at h
        · cases h
        · split at h
          · obtain rfl := Option.some.inj h
            exact ht
          · cases h
    · next ht => exact matchOverlap_inSlot ht h
  · cases h

theorem authenticate_inSlot {matched : CredentialMatched}
    (h : authenticate settings hashToken row request now = some matched) :
    InSlot hashToken row request.token matched := by
  rw [authenticate] at h
  split at h
  · exact getCurrentAgent_inSlot h
  · exact reattach_inSlot h

/-- A bearer in neither slot is accepted nowhere. -/
theorem not_acceptsBearer (hne : row.tokenHash ≠ hashToken token)
    (hp : row.previousTokenHash ≠ some (hashToken token)) :
    acceptsBearer settings hashToken row token now = false := by
  rw [Bool.eq_false_iff]
  intro h
  rw [acceptsBearer, Bool.or_eq_true, Option.isSome_iff_exists,
    Option.isSome_iff_exists] at h
  have hslot : ∃ matched, InSlot hashToken row token matched := by
    rcases h with ⟨matched, h⟩ | ⟨matched, h⟩
    · exact ⟨matched, getCurrentAgent_inSlot h⟩
    · exact ⟨matched, reattach_inSlot h⟩
  obtain ⟨matched, hslot⟩ := hslot
  cases matched with
  | current => exact hne hslot
  | overlap => exact hp hslot.2

/-- The current bearer of an active agent is accepted until its expiry and
the reattach window after it. -/
theorem acceptsBearer_current (hactive : row.trustState = .active)
    (ht : row.tokenHash = hashToken token)
    (hnow : ∀ expiresAt, row.credentialExpiresAt = some expiresAt →
      now < expiresAt
        + seconds settings.agentCredentialReattachWindowSeconds) :
    acceptsBearer settings hashToken row token now = true := by
  rw [acceptsBearer, getCurrentAgent, getAgentForCredentialReattach, hactive,
    if_neg (fun h => AgentTrustState.noConfusion h), if_pos ht, if_pos rfl,
    if_pos ht]
  cases hexp : row.credentialExpiresAt with
  | none => rfl
  | some expiresAt =>
      have hwindow := hnow expiresAt hexp
      by_cases hlive : now < expiresAt
      · show ((if now < expiresAt then _ else _ : Option _).isSome || _) = true
        rw [if_pos hlive]
        rfl
      · have hlapsed : expiresAt ≤ now := by omega
        show (_ || (if expiresAt ≤ now ∧ _ then _ else _ :
          Option _).isSome) = true
        rw [if_pos ⟨hlapsed, hwindow⟩]
        exact Bool.or_true _

/-- The superseded bearer is accepted until the overlap ends. -/
theorem acceptsBearer_overlap (hactive : row.trustState = .active)
    (hp : row.previousTokenHash = some (hashToken token))
    (hne : row.tokenHash ≠ hashToken token) {overlapUntil : Int}
    (huntil : row.previousTokenExpiresAt = some overlapUntil)
    (hnow : now < overlapUntil) :
    acceptsBearer settings hashToken row token now = true := by
  have hmatch : matchOverlap row (hashToken token) now = some .overlap := by
    rw [matchOverlap, if_pos hp, huntil]
    exact if_pos hnow
  rw [acceptsBearer, getCurrentAgent, hactive,
    if_neg (fun h => AgentTrustState.noConfusion h), if_neg hne, hmatch]
  rfl

@[simp] theorem flushColumn_self {A : Type} [DecidableEq A] (read new : A) :
    flushColumn read new read = new := by
  rw [flushColumn]
  split
  · next h => exact h.symm
  · rfl

/-- A row that still stands as it was read becomes the new one. -/
@[simp] theorem flushCredential_self (read new : CredentialRow) :
    flushCredential read new read = new := by
  simp only [flushCredential, flushColumn_self]

/-- A request that is not rolled back rotates on the slot its bearer is in. -/
theorem credentialTxn_cases {seen : Int} {plaintext : String} :
    credentialTxn settings hashToken credentialFingerprint row request seen now
        plaintext = {} ∨
      ∃ matched, InSlot hashToken row request.token matched ∧
        row.lastRotationNonce ≠ some request.rotationNonce ∧
        credentialTxn settings hashToken credentialFingerprint row request seen
            now plaintext =
          rotationTxn settings hashToken credentialFingerprint row matched
            request now plaintext := by
  rw [credentialTxn]
  split
  · exact Or.inl rfl
  · split
    · exact Or.inl rfl
    · next matched hauth =>
        split
        · exact Or.inl rfl
        · next hnonce =>
            exact Or.inr ⟨matched, authenticate_inSlot hauth, hnonce, rfl⟩

end Lemmas

end NodeLink.Server
