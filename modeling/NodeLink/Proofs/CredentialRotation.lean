import NodeLink.Lib.Prog
import NodeLink.Server.CredentialRuns

/-!
# Which rotations strand an agent

The server keeps the current bearer and the one the last rotation was
requested with. As long as no rotation is committed over another, and none
is made for an overlap bearer whose successor the agent has or still waits
for, one of the two is the bearer in the agent's file, and the deadline of
its slot is the one the agent was given.
-/

namespace NodeLink.Proofs

open Lib Server

section Rotation

variable {settings : CredentialSettings}
  {hashToken credentialFingerprint : String → String}

/-- The bearer of that hash is in the agent's file, or in an answer the agent
is waiting for. -/
def HasOrAwaits (hashToken : String → String) (st : CredentialState)
    (hash : String) : Prop :=
  hash = hashToken st.file.agentToken ∨
    ∃ s r, st.session = some s ∧ r ∈ st.server.rotations ∧
      s.waiting = some r.rotationNonce ∧ hash = hashToken r.agentToken

/-- The rotation commits over the row it has read; and if its request does
not carry the current bearer, the agent has given the current one up. -/
def InTurn (hashToken : String → String) (st : CredentialState) (t : Nat) :
    Prop :=
  (∀ w ∈ (st.server.txns t).writes, w.read = st.server.row) ∧
    ∀ r ∈ (st.server.txns t).inserts,
      st.server.row.tokenHash ≠ hashToken r.token →
        ¬ HasOrAwaits hashToken st st.server.row.tokenHash

/-- The bearers the server has given out. -/
def released (enrolled : String) (st : CredentialState) : List String :=
  enrolled :: st.server.rotations.map (·.agentToken)

/-- What the two slots hold: the bearer of the last rotation and the one it
was requested with, with the deadlines that were answered. -/
def Slots (hashToken : String → String) (enrolled : String)
    (expiresAt : Option Int) (row : CredentialRow)
    (rotations : List Rotation) : Prop :=
  (rotations = [] ∧ row.tokenHash = hashToken enrolled ∧
    row.credentialExpiresAt = expiresAt ∧ row.previousTokenHash = none) ∨
  ∃ rs r, rotations = rs ++ [r] ∧
    row.tokenHash = hashToken r.agentToken ∧
    row.credentialExpiresAt = some r.credentialExpiresAt ∧
    row.previousTokenHash = some (hashToken r.token) ∧
    row.previousTokenExpiresAt = some r.overlapExpiresAt

/-- The bearer is in one of the slots. -/
def SlotHolds (hashToken : String → String) (row : CredentialRow)
    (token : String) : Prop :=
  row.tokenHash = hashToken token ∨
    row.previousTokenHash = some (hashToken token)

/-- A rotation under way: of a request that has been sent, on the slot its
bearer was in, with a bearer nobody has been given. -/
def Underway (settings : CredentialSettings)
    (hashToken credentialFingerprint : String → String) (enrolled : String)
    (st : CredentialState) (txn : CredentialTxn) : Prop :=
  ∃ row matched request now plaintext, request ∈ st.requests ∧
    txn = rotationTxn settings hashToken credentialFingerprint row matched
      request now plaintext ∧
    InSlot hashToken row request.token matched ∧
    plaintext ∈ st.server.generated ∧ plaintext ∉ released enrolled st

variable (settings hashToken credentialFingerprint) in
/-- What timely commits keep. -/
structure Recoverable (enrolled : String) (expiresAt : Option Int)
    (st : CredentialState) : Prop where
  active : st.server.row.trustState = .active
  slots : Slots hashToken enrolled expiresAt st.server.row
    st.server.rotations
  inj : ∀ a ∈ st.server.generated, ∀ b ∈ st.server.generated,
    hashToken a = hashToken b → a = b
  generated : ∀ x ∈ released enrolled st, x ∈ st.server.generated
  file : SlotHolds hashToken st.server.row st.file.agentToken
  file_mem : st.file.agentToken ∈ released enrolled st
  memory : ∀ s, st.session = some s →
    SlotHolds hashToken st.server.row s.identity.agentToken
  memory_mem : ∀ s, st.session = some s →
    s.identity.agentToken ∈ released enrolled st
  memory_file : ∀ s, st.session = some s →
    st.server.row.tokenHash = hashToken s.identity.agentToken →
      st.server.row.tokenHash = hashToken st.file.agentToken
  sent_mem : ∀ q ∈ st.requests, q.token ∈ released enrolled st
  sent : ∀ q ∈ st.requests, st.server.row.tokenHash = hashToken q.token →
    st.server.row.tokenHash = hashToken st.file.agentToken ∧
      ∀ s, st.session = some s →
        st.server.row.tokenHash = hashToken s.identity.agentToken
  answers : ∀ r ∈ st.server.rotations, ∃ q ∈ st.requests,
    q.token = r.token ∧ q.rotationNonce = r.rotationNonce
  superseded : ∀ r ∈ st.server.rotations,
    st.server.row.tokenHash ≠ hashToken r.token
  awaits : ∀ s r, st.session = some s → r ∈ st.server.rotations →
    s.waiting = some r.rotationNonce →
      st.server.row.tokenHash = hashToken r.agentToken ∧
        ∀ q ∈ st.requests, st.server.row.tokenHash ≠ hashToken q.token
  txns : ∀ t, st.server.txns t = {} ∨ Underway settings hashToken
    credentialFingerprint enrolled st (st.server.txns t)
  distinct : ∀ t u, t ≠ u → ∀ r ∈ (st.server.txns t).inserts,
    ∀ r' ∈ (st.server.txns u).inserts, r.agentToken ≠ r'.agentToken

variable {enrolled : String} {expiresAt : Option Int}
  {st st' : CredentialState}

theorem recoverable_enrolled (h : Enrolled hashToken st) :
    Recoverable settings hashToken credentialFingerprint st.file.agentToken
      st.server.row.credentialExpiresAt st where
  active := h.active
  slots := Or.inl ⟨h.rotations, h.token, rfl, h.previous⟩
  inj := by
    intro a ha b hb _
    rw [h.generated, List.mem_singleton] at ha hb
    rw [ha, hb]
  generated := by
    intro x hx
    rw [released, h.rotations] at hx
    rw [h.generated]
    exact hx
  file := Or.inl h.token
  file_mem := List.mem_cons_self
  memory := fun s hs => by rw [h.session] at hs; cases hs
  memory_mem := fun s hs => by rw [h.session] at hs; cases hs
  memory_file := fun s hs => by rw [h.session] at hs; cases hs
  sent_mem := fun q hq => by rw [h.requests] at hq; cases hq
  sent := fun q hq => by rw [h.requests] at hq; cases hq
  answers := fun r hr => by rw [h.rotations] at hr; cases hr
  superseded := fun r hr => by rw [h.rotations] at hr; cases hr
  awaits := fun s r hs => by rw [h.session] at hs; cases hs
  txns := fun t => Or.inl (by rw [h.txns])
  distinct := fun t u _ r hr => by rw [h.txns] at hr; cases hr

/-! ## Steps of the agent -/

namespace Recoverable

/-- What the agent has been given is known to the server, and only by its own
hash. -/
theorem token_eq (h : Recoverable settings hashToken credentialFingerprint
      enrolled expiresAt st) {a b : String} (ha : a ∈ released enrolled st)
    (hb : b ∈ released enrolled st) (hash : hashToken a = hashToken b) :
    a = b :=
  h.inj a (h.generated a ha) b (h.generated b hb) hash

theorem boot (h : Recoverable settings hashToken credentialFingerprint
      enrolled expiresAt st) :
    Recoverable settings hashToken credentialFingerprint enrolled expiresAt
      { st with session := some ⟨st.file, none⟩ } :=
  { h with
    memory := by
      rintro s ⟨⟩
      exact h.file
    memory_mem := by
      rintro s ⟨⟩
      exact h.file_mem
    memory_file := by
      rintro s ⟨⟩ ht
      exact ht
    sent := by
      intro q hq ht
      have hfile := (h.sent q hq ht).1
      refine ⟨hfile, ?_⟩
      rintro s ⟨⟩
      exact hfile
    awaits := by
      rintro s r ⟨⟩ _ hw
      cases hw }

theorem crash (h : Recoverable settings hashToken credentialFingerprint
      enrolled expiresAt st) :
    Recoverable settings hashToken credentialFingerprint enrolled expiresAt
      { st with session := none } :=
  { h with
    memory := fun s hs => by cases hs
    memory_mem := fun s hs => by cases hs
    memory_file := fun s hs => by cases hs
    sent := fun q hq ht => ⟨(h.sent q hq ht).1, fun s hs => by cases hs⟩
    awaits := fun s r hs => by cases hs }

theorem giveUp (h : Recoverable settings hashToken credentialFingerprint
      enrolled expiresAt st) {s : CredentialSession}
    (hs : st.session = some s) :
    Recoverable settings hashToken credentialFingerprint enrolled expiresAt
      { st with session := some { s with waiting := none } } :=
  { h with
    memory := by
      rintro s' ⟨⟩
      exact h.memory s hs
    memory_mem := by
      rintro s' ⟨⟩
      exact h.memory_mem s hs
    memory_file := by
      rintro s' ⟨⟩ ht
      exact h.memory_file s hs ht
    sent := by
      intro q hq ht
      obtain ⟨hfile, hmem⟩ := h.sent q hq ht
      refine ⟨hfile, ?_⟩
      rintro s' ⟨⟩
      exact hmem s hs
    awaits := by
      rintro s' r ⟨⟩ _ hw
      cases hw }

/-- A request carries the bearer in memory, under a nonce no answer has. -/
theorem send (h : Recoverable settings hashToken credentialFingerprint
      enrolled expiresAt st) {s : CredentialSession} {nonce : String}
    {endpoint : CredentialEndpoint} (hs : st.session = some s)
    (hnonce : ∀ request ∈ st.requests, request.rotationNonce ≠ nonce) :
    Recoverable settings hashToken credentialFingerprint enrolled expiresAt
      { st with
        session := some { s with waiting := some nonce }
        requests := ⟨endpoint, s.identity.agentToken, nonce⟩ ::
          st.requests } :=
  { h with
    memory := by
      rintro s' ⟨⟩
      exact h.memory s hs
    memory_mem := by
      rintro s' ⟨⟩
      exact h.memory_mem s hs
    memory_file := by
      rintro s' ⟨⟩ ht
      exact h.memory_file s hs ht
    sent_mem := by
      intro q hq
      rcases List.mem_cons.mp hq with rfl | hq
      · exact h.memory_mem s hs
      · exact h.sent_mem q hq
    sent := by
      intro q hq ht
      rcases List.mem_cons.mp hq with rfl | hq
      · refine ⟨h.memory_file s hs ht, ?_⟩
        rintro s' ⟨⟩
        exact ht
      · obtain ⟨hfile, hmem⟩ := h.sent q hq ht
        refine ⟨hfile, ?_⟩
        rintro s' ⟨⟩
        exact hmem s hs
    answers := by
      intro r hr
      obtain ⟨q, hq, hrest⟩ := h.answers r hr
      exact ⟨q, List.mem_cons_of_mem _ hq, hrest⟩
    awaits := by
      rintro s' r ⟨⟩ hr hw
      obtain ⟨q, hq, -, hqn⟩ := h.answers r hr
      exact absurd (hqn.trans (Option.some.inj hw).symm) (hnonce q hq)
    txns := by
      intro t
      refine (h.txns t).imp_right ?_
      rintro ⟨row, matched, q, now, plaintext, hq, hrest⟩
      exact ⟨row, matched, q, now, plaintext, List.mem_cons_of_mem _ hq,
        hrest⟩ }

/-- The answer the agent waits for carries the current bearer, so adopting it
in any part is safe. -/
theorem adopt (h : Recoverable settings hashToken credentialFingerprint
      enrolled expiresAt st) {s : CredentialSession} {r : Rotation} {now : Int}
    {save : SaveEnd} (hs : st.session = some s)
    (hr : r ∈ st.server.rotations)
    (hwaits : s.waiting = some r.rotationNonce) :
    Recoverable settings hashToken credentialFingerprint enrolled expiresAt
      { st with
        file := (persistAndAdoptCredential st.file s.identity
          (r.identity now) save).1
        session := some ⟨(persistAndAdoptCredential st.file s.identity
          (r.identity now) save).2, none⟩ } := by
  obtain ⟨hcurrent, hnew⟩ := h.awaits s r hs hr hwaits
  have hmem : r.agentToken ∈ released enrolled st :=
    List.mem_cons_of_mem _ (List.mem_map_of_mem hr)
  cases save with
  | failed => exact h.giveUp hs
  | saved =>
      exact { h with
        file := Or.inl hcurrent
        file_mem := hmem
        memory := by
          rintro s' ⟨⟩
          exact Or.inl hcurrent
        memory_mem := by
          rintro s' ⟨⟩
          exact hmem
        memory_file := fun _ _ _ => hcurrent
        sent := fun q hq ht => absurd ht (hnew q hq)
        awaits := by
          rintro s' r' ⟨⟩ _ hw
          cases hw }
  | failedAfterRename =>
      exact { h with
        file := Or.inl hcurrent
        file_mem := hmem
        memory := by
          rintro s' ⟨⟩
          exact h.memory s hs
        memory_mem := by
          rintro s' ⟨⟩
          exact h.memory_mem s hs
        memory_file := fun _ _ _ => hcurrent
        sent := fun q hq ht => absurd ht (hnew q hq)
        awaits := by
          rintro s' r' ⟨⟩ _ hw
          cases hw }

theorem saveIdentity (h : Recoverable settings hashToken
      credentialFingerprint enrolled expiresAt st) {s : CredentialSession}
    (hs : st.session = some s) :
    Recoverable settings hashToken credentialFingerprint enrolled expiresAt
      { st with file := s.identity } :=
  { h with
    file := h.memory s hs
    file_mem := h.memory_mem s hs
    memory_file := by
      intro s' hs' ht
      obtain rfl := Option.some.inj (hs.symm.trans hs')
      exact ht
    sent := by
      intro q hq ht
      obtain ⟨-, hmem⟩ := h.sent q hq ht
      exact ⟨hmem s hs, hmem⟩ }

/-! ## Steps of the server -/

/-- Transactions that are each as before or gone keep what is known of
them. -/
theorem of_txns (h : Recoverable settings hashToken credentialFingerprint
      enrolled expiresAt st) {txns : Nat → CredentialTxn}
    (hsame : ∀ u, txns u = {} ∨ txns u = st.server.txns u) :
    Recoverable settings hashToken credentialFingerprint enrolled expiresAt
      { st with server := { st.server with txns := txns } } :=
  { h with
    txns := by
      intro u
      rcases hsame u with hu | hu
      · exact Or.inl hu
      · show txns u = {} ∨ Underway settings hashToken credentialFingerprint
          enrolled st (txns u)
        rw [hu]
        exact h.txns u
    distinct := by
      have hold : ∀ u, ∀ r ∈ (txns u).inserts,
          r ∈ (st.server.txns u).inserts := by
        intro u r hr
        rcases hsame u with hu | hu
        · rw [hu] at hr
          cases hr
        · exact hu ▸ hr
      intro u v huv r hr r' hr'
      exact h.distinct u v huv r (hold u r hr) r' (hold v r' hr') }

theorem rollback (h : Recoverable settings hashToken credentialFingerprint
      enrolled expiresAt st) {t : Nat} :
    Recoverable settings hashToken credentialFingerprint enrolled expiresAt
      { st with server := st.server.rollback t } := by
  refine h.of_txns fun u => ?_
  by_cases hu : u = t
  · rw [hu]
    exact Or.inl CredentialServer.rollback_self
  · exact Or.inr (CredentialServer.rollback_ne hu)

/-- The bearer of a handler that has run is the one it was given. -/
theorem credentialTxn_agentToken {row : CredentialRow}
    {request : RotationRequest} {seen now : Int} {plaintext : String}
    {r : Rotation} (hr : r ∈ (credentialTxn settings hashToken
      credentialFingerprint row request seen now plaintext).inserts) :
    r.agentToken = plaintext := by
  rcases credentialTxn_cases with he | ⟨matched, -, -, he⟩
  · rw [he] at hr
    cases hr
  · rw [he] at hr
    obtain rfl := List.mem_singleton.mp hr
    rfl

/-- A handler that has run has changed nothing yet, and its bearer is new. -/
theorem serve (h : Recoverable settings hashToken credentialFingerprint
      enrolled expiresAt st) {t : Nat} {request : RotationRequest}
    {seen now : Int} {plaintext : String} (hsent : request ∈ st.requests)
    (hfresh : ∀ other ∈ st.server.generated,
      hashToken other ≠ hashToken plaintext) :
    Recoverable settings hashToken credentialFingerprint enrolled expiresAt
      { st with
        clock := now
        server := st.server.serve t (credentialTxn settings hashToken
          credentialFingerprint st.server.row request seen now plaintext)
          plaintext } := by
  have hnew : ∀ x ∈ st.server.generated, x ≠ plaintext :=
    fun x hx heq => hfresh x hx (congrArg hashToken heq)
  have hmade : ∀ u, ∀ r ∈ (st.server.txns u).inserts,
      r.agentToken ≠ plaintext := by
    intro u r hr
    rcases h.txns u with hu | ⟨row, matched, q, t₀, p, -, hu, -, hp, -⟩
    · rw [hu] at hr
      cases hr
    · rw [hu] at hr
      obtain rfl := List.mem_singleton.mp hr
      exact hnew p hp
  exact { h with
    inj := by
      intro a ha b hb hash
      rcases List.mem_cons.mp ha with heq | ha
      · rcases List.mem_cons.mp hb with heq' | hb
        · exact heq.trans heq'.symm
        · exact absurd (heq ▸ hash.symm) (hfresh b hb)
      · rcases List.mem_cons.mp hb with heq' | hb
        · exact absurd (heq' ▸ hash) (hfresh a ha)
        · exact h.inj a ha b hb hash
    generated := fun x hx => List.mem_cons_of_mem _ (h.generated x hx)
    txns := by
      intro u
      by_cases hu : u = t
      · rw [hu]
        rcases credentialTxn_cases with he | ⟨matched, hslot, -, he⟩
        · exact Or.inl (CredentialServer.serve_self.trans he)
        · right
          refine ⟨st.server.row, matched, request, now, plaintext, hsent,
            CredentialServer.serve_self.trans he, hslot,
            List.mem_cons_self, ?_⟩
          exact fun hold => hnew plaintext (h.generated plaintext hold) rfl
      · rcases h.txns u with hu' | ⟨row, matched, q, t₀, p, hq, hu', hslot,
          hp, hrest⟩
        · exact Or.inl ((CredentialServer.serve_ne hu).trans hu')
        · exact Or.inr ⟨row, matched, q, t₀, p, hq,
            (CredentialServer.serve_ne hu).trans hu', hslot,
            List.mem_cons_of_mem _ hp, hrest⟩
    distinct := by
      intro u v huv r hr r' hr'
      by_cases hu : u = t
      · have hv : v ≠ t := fun hv => huv (hu.trans hv.symm)
        rw [hu, CredentialServer.serve_self] at hr
        rw [CredentialServer.serve_ne hv] at hr'
        rw [credentialTxn_agentToken hr]
        exact (hmade v r' hr').symm
      · rw [CredentialServer.serve_ne hu] at hr
        by_cases hv : v = t
        · rw [hv, CredentialServer.serve_self] at hr'
          rw [credentialTxn_agentToken hr']
          exact hmade u r hr
        · rw [CredentialServer.serve_ne hv] at hr'
          exact h.distinct u v huv r hr r' hr' }

/-- A rotation that commits in turn leaves the agent's bearer in the overlap
slot. -/
theorem commit_kept {matched : CredentialMatched}
    {request : RotationRequest} {now : Int} {plaintext token : String}
    (hkept : SlotHolds hashToken st.server.row token)
    (hcurrent : matched = .current →
      st.server.row.tokenHash = hashToken token)
    (hoverlap : matched = .overlap →
      st.server.row.tokenHash ≠ hashToken token) :
    SlotHolds hashToken (rotateAgentCredential settings hashToken
      credentialFingerprint st.server.row matched now request.rotationNonce
      plaintext) token := by
  right
  cases matched with
  | current => exact congrArg some (hcurrent rfl)
  | overlap => exact hkept.resolve_left (hoverlap rfl)

theorem commit_rotation (h : Recoverable settings hashToken
      credentialFingerprint enrolled expiresAt st) {t : Nat}
    {matched : CredentialMatched} {request : RotationRequest} {now : Int}
    {plaintext : String} (hsent : request ∈ st.requests)
    (ht : st.server.txns t = rotationTxn settings hashToken
      credentialFingerprint st.server.row matched request now plaintext)
    (hslot : InSlot hashToken st.server.row request.token matched)
    (hnew : plaintext ∉ released enrolled st)
    (hmade : plaintext ∈ st.server.generated)
    (hturn : matched = .overlap →
      ¬ HasOrAwaits hashToken st st.server.row.tokenHash) :
    Recoverable settings hashToken credentialFingerprint enrolled expiresAt
      { st with server := { st.server with
        row := rotateAgentCredential settings hashToken credentialFingerprint
          st.server.row matched now request.rotationNonce plaintext
        rotations := st.server.rotations ++
          [rotationResponse settings st.server.row request now plaintext]
        txns := Function.update st.server.txns t {} } } := by
  have hfresh : ∀ x ∈ released enrolled st,
      hashToken plaintext ≠ hashToken x := by
    intro x hx heq
    have hsame := h.inj plaintext hmade x (h.generated x hx) heq
    exact hnew (hsame ▸ hx)
  -- a current request's bearer is the one the agent has everywhere
  have hfile : matched = .current →
      st.server.row.tokenHash = hashToken st.file.agentToken := by
    rintro rfl
    exact (h.sent request hsent hslot).1
  have hfile' : matched = .overlap →
      st.server.row.tokenHash ≠ hashToken st.file.agentToken :=
    fun hm heq => hturn hm (Or.inl heq)
  have hmemory : ∀ s, st.session = some s → matched = .current →
      st.server.row.tokenHash = hashToken s.identity.agentToken := by
    rintro s hs rfl
    exact (h.sent request hsent hslot).2 s hs
  have hmemory' : ∀ s, st.session = some s → matched = .overlap →
      st.server.row.tokenHash ≠ hashToken s.identity.agentToken :=
    fun s hs hm heq => hfile' hm (h.memory_file s hs heq)
  have hgrow : ∀ x, x ∈ released enrolled st →
      x ∈ enrolled :: (st.server.rotations ++ [rotationResponse settings
        st.server.row request now plaintext]).map (·.agentToken) := by
    intro x hx
    rw [List.map_append, ← List.cons_append]
    exact List.mem_append_left _ hx
  have hprevious : (rotateAgentCredential settings hashToken
      credentialFingerprint st.server.row matched now request.rotationNonce
      plaintext).previousTokenHash = some (hashToken request.token) := by
    cases matched with
    | current => exact congrArg some hslot
    | overlap => exact hslot.2
  exact {
    active := h.active
    slots := Or.inr ⟨_, _, rfl, rfl, rfl, hprevious, rfl⟩
    inj := h.inj
    generated := by
      intro x hx
      rw [released, List.map_append, ← List.cons_append,
        List.mem_append] at hx
      rcases hx with hx | hx
      · exact h.generated x hx
      · rw [List.mem_singleton.mp hx]
        exact hmade
    file := commit_kept h.file hfile hfile'
    file_mem := hgrow _ h.file_mem
    memory := fun s hs =>
      commit_kept (h.memory s hs) (hmemory s hs) (hmemory' s hs)
    memory_mem := fun s hs => hgrow _ (h.memory_mem s hs)
    memory_file := fun s hs heq =>
      absurd heq (hfresh _ (h.memory_mem s hs))
    sent_mem := fun q hq => hgrow _ (h.sent_mem q hq)
    sent := fun q hq heq => absurd heq (hfresh _ (h.sent_mem q hq))
    answers := by
      intro r hr
      rcases List.mem_append.mp hr with hr | hr
      · exact h.answers r hr
      · rw [List.mem_singleton.mp hr]
        exact ⟨request, hsent, rfl, rfl⟩
    superseded := by
      intro r hr
      rcases List.mem_append.mp hr with hr | hr
      · obtain ⟨q, hq, hqr, -⟩ := h.answers r hr
        exact hqr ▸ hfresh _ (h.sent_mem q hq)
      · rw [List.mem_singleton.mp hr]
        exact hfresh _ (h.sent_mem request hsent)
    awaits := by
      intro s r hs hr hw
      rcases List.mem_append.mp hr with hold | hlast
      · obtain ⟨hcur, hnone⟩ := h.awaits s r hs hold hw
        cases matched with
        | current => exact absurd hslot (hnone request hsent)
        | overlap =>
            exact absurd (Or.inr ⟨s, r, hs, hold, hw, hcur⟩) (hturn rfl)
      · rw [List.mem_singleton.mp hlast]
        exact ⟨rfl, fun q hq => hfresh _ (h.sent_mem q hq)⟩
    txns := by
      intro u
      show Function.update st.server.txns t {} u = {} ∨ _
      by_cases hu : u = t
      · rw [hu, Function.update_self]
        exact Or.inl rfl
      · rw [Function.update_of_ne hu]
        refine (h.txns u).imp_right ?_
        rintro ⟨row, matched', q, now', p, hq, hu', hslot', hp, hold⟩
        refine ⟨row, matched', q, now', p, hq, ?_, hslot', hp, ?_⟩
        · exact (Function.update_of_ne hu ..).trans hu'
        · intro hmem
          rw [released, List.map_append, ← List.cons_append,
            List.mem_append] at hmem
          refine hmem.elim hold fun hmem => ?_
          refine h.distinct u t hu (rotationResponse settings row q now' p)
            (hu' ▸ List.mem_singleton_self _) (rotationResponse settings
              st.server.row request now plaintext)
            (ht ▸ List.mem_singleton_self _) ?_
          exact List.mem_singleton.mp hmem
    distinct := by
      have hsame : ∀ u, ∀ r ∈ (Function.update st.server.txns t {} u).inserts,
          r ∈ (st.server.txns u).inserts := by
        intro u r hr
        by_cases hu : u = t
        · rw [hu, Function.update_self] at hr
          cases hr
        · rwa [Function.update_of_ne hu] at hr
      intro u v huv r hr r' hr'
      exact h.distinct u v huv r (hsame u r hr) r' (hsame v r' hr') }

theorem commit (h : Recoverable settings hashToken credentialFingerprint
      enrolled expiresAt st) {t : Nat} (hturn : InTurn hashToken st t) :
    Recoverable settings hashToken credentialFingerprint enrolled expiresAt
      { st with server := st.server.commit t } := by
  rcases h.txns t with ht | ⟨row, matched, request, now, plaintext, hsent, ht,
    hslot, hmade, hnew⟩
  · have hnothing : st.server.commit t =
        { st.server with txns := Function.update st.server.txns t {} } := by
      rw [CredentialServer.commit, ht, List.append_nil]
      rfl
    rw [hnothing]
    refine h.of_txns fun u => ?_
    by_cases hu : u = t
    · rw [hu, Function.update_self]
      exact Or.inl rfl
    · exact Or.inr (Function.update_of_ne hu ..)
  · obtain ⟨hread, hgiven⟩ := hturn
    rw [ht] at hread hgiven
    obtain rfl : row = st.server.row := hread _ (List.mem_singleton_self _)
    have hrotated := h.commit_rotation hsent ht hslot hnew hmade (by
      rintro rfl
      exact hgiven _ (List.mem_singleton_self _) hslot.1)
    have hcommit : st.server.commit t = { st.server with
        row := rotateAgentCredential settings hashToken credentialFingerprint
          st.server.row matched now request.rotationNonce plaintext
        rotations := st.server.rotations ++
          [rotationResponse settings st.server.row request now plaintext]
        txns := Function.update st.server.txns t {} } := by
      rw [CredentialServer.commit, ht]
      show CredentialServer.mk (flushCredential _ _ _) _ _ _ = _
      rw [flushCredential_self]
      rfl
    rw [hcommit]
    exact hrotated

theorem step (h : Recoverable settings hashToken credentialFingerprint
      enrolled expiresAt st)
    (hs : CredentialStep settings hashToken credentialFingerprint
      (InTurn hashToken) st st') :
    Recoverable settings hashToken credentialFingerprint enrolled expiresAt
      st' := by
  cases hs with
  | tick => exact { h with }
  | boot => exact h.boot
  | crash => exact h.crash
  | send hs _ _ hnonce => exact h.send hs hnonce
  | giveUp hs => exact h.giveUp hs
  | adopt hs hr hwaits => exact h.adopt hs hr hwaits
  | saveIdentity hs => exact h.saveIdentity hs
  | serve hsent _ _ _ hfresh _ => exact h.serve hsent hfresh
  | commit _ hturn => exact h.commit hturn
  | rollback => exact h.rollback

/-- The bearer in the file is accepted until its deadline. -/
theorem accepts (h : Recoverable settings hashToken credentialFingerprint
      enrolled expiresAt st)
    (hclock : ∀ deadline, recoveryDeadline settings expiresAt
      st.server.rotations st.file.agentToken = some deadline →
        st.clock < deadline) :
    acceptsBearer settings hashToken st.server.row st.file.agentToken
      st.clock = true := by
  have hlisted : ∀ r ∈ st.server.rotations,
      r.agentToken ∈ released enrolled st := fun r hr =>
    List.mem_cons_of_mem _ (List.mem_map_of_mem hr)
  by_cases hcurrent : st.server.row.tokenHash = hashToken st.file.agentToken
  · refine acceptsBearer_current h.active hcurrent fun e he => ?_
    have hunused : st.server.rotations.reverse.find? (fun r =>
        decide (r.token = st.file.agentToken)) = none := by
      rw [List.find?_eq_none]
      intro r hr hrt
      rw [decide_eq_true_eq] at hrt
      exact h.superseded r (List.mem_reverse.mp hr) (hrt ▸ hcurrent)
    refine hclock _ ?_
    rw [recoveryDeadline, hunused]
    rcases h.slots with ⟨hnil, -, hexp, -⟩ | ⟨rs, r, hlast, htoken, hexp, -, -⟩
    · rw [hnil]
      show Option.map _ expiresAt = _
      rw [← hexp, he]
      rfl
    · have hheld : r.agentToken = st.file.agentToken :=
        h.token_eq (hlisted r (hlast ▸ List.mem_append_right _
          (List.mem_singleton_self r))) h.file_mem
          (htoken.symm.trans hcurrent)
      obtain rfl := Option.some.inj (hexp.symm.trans he)
      have hfound : st.server.rotations.reverse.find? (fun r =>
          decide (r.agentToken = st.file.agentToken)) = some r := by
        rw [hlast, List.reverse_append]
        exact List.find?_cons_of_pos (decide_eq_true hheld)
      rw [hfound]
      rfl
  · have hprevious := h.file.resolve_left hcurrent
    rcases h.slots with ⟨-, -, -, hnone⟩ | ⟨rs, r, hlast, -, -, hprev, huntil⟩
    · rw [hnone] at hprevious
      cases hprevious
    · obtain ⟨q, hq, hqr, -⟩ := h.answers r (hlast ▸
        List.mem_append_right _ (List.mem_singleton_self r))
      have hheld : r.token = st.file.agentToken := by
        refine h.token_eq (hqr ▸ h.sent_mem q hq) h.file_mem ?_
        exact Option.some.inj (hprev.symm.trans hprevious)
      refine acceptsBearer_overlap h.active hprevious hcurrent huntil ?_
      have hfound : st.server.rotations.reverse.find? (fun r =>
          decide (r.token = st.file.agentToken)) = some r := by
        rw [hlast, List.reverse_append]
        exact List.find?_cons_of_pos (decide_eq_true hheld)
      refine hclock _ ?_
      rw [recoveryDeadline, hfound]

end Recoverable

/-- From enrollment on, with every rotation committed in turn, the bearer in
the agent's file is accepted at every moment until its deadline, through any
interleaving of renewals and reattachments, lost, late and repeated requests
and answers, failed saves and restarts. -/
theorem rotation_keeps_bearer (hstart : Enrolled hashToken st)
    (hrun : CredentialRun settings hashToken credentialFingerprint
      (InTurn hashToken) st st')
    (hclock : ∀ deadline, recoveryDeadline settings
      st.server.row.credentialExpiresAt st'.server.rotations
        st'.file.agentToken = some deadline → st'.clock < deadline) :
    acceptsBearer settings hashToken st'.server.row st'.file.agentToken
      st'.clock = true := by
  have hkeeps : Recoverable settings hashToken credentialFingerprint
      st.file.agentToken st.server.row.credentialExpiresAt st' :=
    @invariant_of_steps _ (CredentialStep settings hashToken
        credentialFingerprint (InTurn hashToken))
      (Recoverable settings hashToken credentialFingerprint _ _)
      (fun _ _ h hs => h.step hs) _ _ (recoverable_enrolled hstart) hrun
  exact hkeeps.accepts hclock

/-! ## Runs

A rotation whose commit follows its handler at once, no other being under
way.
-/

variable {may : CredentialState → Nat → Prop} {request : RotationRequest}
  {matched : CredentialMatched} {plaintext : String}

theorem credentialTxn_of_match
    (hlength : 16 ≤ request.rotationNonce.length ∧
      request.rotationNonce.length ≤ 64)
    {row : CredentialRow} {seen now : Int}
    (hauth : authenticate settings hashToken row request seen = some matched)
    (hnonce : row.lastRotationNonce ≠ some request.rotationNonce) :
    credentialTxn settings hashToken credentialFingerprint row request seen
      now plaintext = rotationTxn settings hashToken credentialFingerprint row
        matched request now plaintext := by
  rw [credentialTxn, if_neg (by omega), hauth]
  exact if_neg hnonce

variable (settings hashToken credentialFingerprint) in
/-- The server while the rotation of a request is under way. -/
def rotatingServer (sv : CredentialServer) (matched : CredentialMatched)
    (request : RotationRequest) (now : Int) (plaintext : String) :
    CredentialServer :=
  sv.serve 0 (rotationTxn settings hashToken credentialFingerprint sv.row
    matched request now plaintext) plaintext

variable (settings hashToken credentialFingerprint) in
/-- The server when it is committed. -/
def rotatedServer (sv : CredentialServer) (matched : CredentialMatched)
    (request : RotationRequest) (now : Int) (plaintext : String) :
    CredentialServer where
  row := rotateAgentCredential settings hashToken credentialFingerprint sv.row
    matched now request.rotationNonce plaintext
  rotations := sv.rotations ++
    [rotationResponse settings sv.row request now plaintext]
  generated := plaintext :: sv.generated

theorem rotating_commits {sv : CredentialServer} {now : Int}
    (hidle : sv.txns = fun _ => {}) :
    (rotatingServer settings hashToken credentialFingerprint sv matched request
      now plaintext).store.Commits 0 := by
  refine ⟨?_, ?_⟩
  · rintro w - ⟨u, hu, hheld⟩
    have hnone : (rotatingServer settings hashToken credentialFingerprint sv
        matched request now plaintext).txns u = {} := by
      rw [rotatingServer, CredentialServer.serve_ne hu, hidle]
    change w.key ∈ ((rotatingServer settings hashToken credentialFingerprint sv
      matched request now plaintext).txns u).held at hheld
    rw [hnone] at hheld
    cases hheld
  · intro w hw r _
    change w ∈ ((rotatingServer settings hashToken credentialFingerprint sv
      matched request now plaintext).txns 0).writes at hw
    rw [rotatingServer, CredentialServer.serve_self] at hw
    rw [List.mem_singleton.mp hw]

theorem rotating_commit {sv : CredentialServer} {now : Int}
    (hidle : sv.txns = fun _ => {}) :
    (rotatingServer settings hashToken credentialFingerprint sv matched request
      now plaintext).commit 0 =
      rotatedServer settings hashToken credentialFingerprint sv matched request
        now plaintext := by
  rw [CredentialServer.commit, rotatingServer, CredentialServer.serve_self]
  show CredentialServer.mk (flushCredential sv.row _ sv.row) _
    (Function.update (Function.update sv.txns 0 _) 0 {}) _ = _
  rw [flushCredential_self, Function.update_idem, hidle,
    Function.update_eq_self]
  rfl

theorem run_rotation (hidle : st.server.txns = fun _ => {})
    (hsent : request ∈ st.requests)
    (hlength : 16 ≤ request.rotationNonce.length ∧
      request.rotationNonce.length ≤ 64)
    (hfresh : ∀ other ∈ st.server.generated,
      hashToken other ≠ hashToken plaintext)
    (hauth : authenticate settings hashToken st.server.row request st.clock =
      some matched)
    (hnonce : st.server.row.lastRotationNonce ≠ some request.rotationNonce)
    (hmay : may
      { st with server := (rotatingServer settings hashToken
          credentialFingerprint st.server matched request st.clock
          plaintext) } 0) :
    CredentialRun settings hashToken credentialFingerprint may st
      { st with server := (rotatedServer settings hashToken
          credentialFingerprint st.server matched request st.clock
          plaintext) } := by
  have htxn := @credentialTxn_of_match settings hashToken
    credentialFingerprint request matched plaintext hlength _ _ st.clock hauth
    hnonce
  have hserve : CredentialStep settings hashToken credentialFingerprint may st
      { st with server := (rotatingServer settings hashToken
          credentialFingerprint st.server matched request st.clock
          plaintext) } := by
    rw [rotatingServer, ← htxn]
    refine .serve hsent (congrFun hidle 0) le_rfl le_rfl hfresh ?_
    rw [htxn]
    refine ⟨?_, ?_, ?_⟩
    · intro w hw
      rw [List.mem_singleton.mp hw]
      rfl
    · rintro k - ⟨u, -, hu⟩
      rw [show st.server.store.txns u = {} from congrFun hidle u] at hu
      cases hu
    · intro w hw
      rw [show st.server.store.txns 0 = {} from congrFun hidle 0] at hw
      cases hw
  rw [← rotating_commit hidle]
  exact (Relation.ReflTransGen.single hserve).tail
    (.commit (rotating_commits hidle) hmay)

/-- A rotation that nothing comes between and whose request carries the
current bearer is in turn. -/
theorem inTurn_current {now : Int} (hcurrent : st.server.row.tokenHash =
      hashToken request.token) :
    InTurn hashToken
      { st with server := (rotatingServer settings hashToken
          credentialFingerprint st.server matched request now plaintext) }
      0 := by
  have htxn : (rotatingServer settings hashToken credentialFingerprint
      st.server matched request now plaintext).txns 0 =
        rotationTxn settings hashToken credentialFingerprint st.server.row
          matched request now plaintext := CredentialServer.serve_self
  refine ⟨?_, ?_⟩
  · intro w hw
    rw [show _ = _ from htxn] at hw
    rw [List.mem_singleton.mp hw]
    rfl
  · intro r hr hne
    rw [show _ = _ from htxn] at hr
    rw [List.mem_singleton.mp hr] at hne
    exact absurd hcurrent hne

end Rotation

end NodeLink.Proofs
