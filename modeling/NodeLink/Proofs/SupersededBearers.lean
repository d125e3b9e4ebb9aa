import NodeLink.Server.CredentialRuns

/-!
# When a superseded bearer expires

A rotation moves the current bearer into the overlap slot and gives the slot a
deadline. A rotation that was requested with the overlap bearer keeps that
bearer and gives it a new deadline. As long as no such rotation is committed,
every bearer expires within the overlap after it was replaced, whoever makes the
requests and however they interleave.
-/

namespace NodeLink.Proofs.SupersededBearers

open Lib Server

/-- The row of an agent with the rotations under way, and the time. -/
structure BearerState where
  server : CredentialServer
  clock : Int

section System

variable (settings : CredentialSettings)
  (hashToken credentialFingerprint : String → String)
  (may : BearerState → Nat → Prop)

/-- Anyone makes a request with any bearer. `may` restricts the commits that are
considered. -/
inductive BearerStep (st : BearerState) : BearerState → Prop where
  | tick {later} (h : st.clock ≤ later) : BearerStep st { st with clock := later }
  | serve {t request seen now plaintext} (hidle : st.server.txns t = {})
      (hseen : st.clock ≤ seen) (hnow : seen ≤ now)
      (hfresh : ∀ other ∈ st.server.generated,
        hashToken other ≠ hashToken plaintext)
      (hreads : st.server.store.Reads t (credentialTxn settings hashToken
        credentialFingerprint st.server.row request seen now plaintext)) :
      BearerStep st
        { server := st.server.serve t (credentialTxn settings hashToken
            credentialFingerprint st.server.row request seen now plaintext) plaintext
          clock := now }
  | commit {t} (hcommits : st.server.store.Commits t) (hmay : may st t) :
      BearerStep st { st with server := st.server.commit t }
  | rollback {t} : BearerStep st { st with server := st.server.rollback t }

/-- Any number of steps. -/
def BearerRun : BearerState → BearerState → Prop :=
  Relation.ReflTransGen (BearerStep settings hashToken credentialFingerprint may)

end System

/-- Nothing is under way, and the bearers in the slots are ones the server has
made. -/
structure Started (hashToken : String → String) (st : BearerState) : Prop where
  txns : st.server.txns = fun _ => {}
  rotations : st.server.rotations = []
  current : st.server.row.tokenHash ∈ st.server.generated.map hashToken
  previous : ∀ hash, st.server.row.previousTokenHash = some hash →
    hash ∈ st.server.generated.map hashToken

/-- A rotation that is committed was requested with the bearer that is the
current one then. -/
def ByCurrent (hashToken : String → String) (st : BearerState) (t : Nat) : Prop :=
  ∀ r ∈ (st.server.txns t).inserts, st.server.row.tokenHash = hashToken r.token

section Bearers

variable {settings : CredentialSettings}
  {hashToken credentialFingerprint : String → String}

/-! ## What holds in every state -/

/-- The hashes that have been in a slot: those at the start, and of the bearers
that were rotated to. -/
def spent (hashToken : String → String) (first : List String) (st : BearerState) :
    List String :=
  first ++ st.server.rotations.map fun r => hashToken r.agentToken

/-- A rotation under way. Its bearer is current only as long as the row is as the
rotation has read it. -/
structure Underway (hashToken : String → String) (first : List String)
    (st : BearerState) (row : CredentialRow) (matched : CredentialMatched)
    (request : RotationRequest) (now : Int) (plaintext : String) : Prop where
  slot : InSlot hashToken row request.token matched
  timely : now ≤ st.clock
  known : hashToken request.token ∈ spent hashToken first st
  fresh : hashToken plaintext ∉ spent hashToken first st
  made : plaintext ∈ st.server.generated
  read : st.server.row.tokenHash = hashToken request.token → row = st.server.row

variable (settings hashToken credentialFingerprint) in
structure Sound (first : List String) (st : BearerState) : Prop where
  current : st.server.row.tokenHash ∈ spent hashToken first st
  previous : ∀ hash, st.server.row.previousTokenHash = some hash →
    hash ∈ spent hashToken first st
  generated : ∀ hash ∈ spent hashToken first st,
    hash ∈ st.server.generated.map hashToken
  txns : ∀ t, st.server.txns t = {} ∨ ∃ row matched request now plaintext,
    st.server.txns t = rotationTxn settings hashToken credentialFingerprint row
      matched request now plaintext ∧
    Underway hashToken first st row matched request now plaintext
  apart : ∀ t u, t ≠ u → ∀ r ∈ (st.server.txns t).inserts,
    ∀ r' ∈ (st.server.txns u).inserts,
      hashToken r.agentToken ≠ hashToken r'.agentToken

variable {first : List String} {st st' : BearerState} {row : CredentialRow}
  {matched : CredentialMatched} {request : RotationRequest} {now : Int}
  {plaintext token : String} {t : Nat}

theorem Underway.mono (h : Underway hashToken first st row matched request now plaintext)
    (hrow : st'.server.row = st.server.row)
    (hrotations : st'.server.rotations = st.server.rotations)
    (hgenerated : st.server.generated ⊆ st'.server.generated)
    (hclock : st.clock ≤ st'.clock) :
    Underway hashToken first st' row matched request now plaintext where
  slot := h.slot
  timely := Int.le_trans h.timely hclock
  known := by
    rw [spent, hrotations]
    exact h.known
  fresh := by
    rw [spent, hrotations]
    exact h.fresh
  made := hgenerated h.made
  read := by
    rw [hrow]
    exact h.read

theorem sound_started (h : Started hashToken st) :
    Sound settings hashToken credentialFingerprint
      (st.server.generated.map hashToken) st where
  current := List.mem_append_left _ h.current
  previous hash hhash := List.mem_append_left _ (h.previous hash hhash)
  generated hash hhash := by
    rw [spent, h.rotations, List.map_nil, List.append_nil] at hhash
    exact hhash
  txns t := .inl (by rw [h.txns])
  apart t u _ r hr := by
    rw [h.txns] at hr
    cases hr

/-! ## Steps -/

theorem Sound.tick (h : Sound settings hashToken credentialFingerprint first st)
    {later : Int} (hlater : st.clock ≤ later) :
    Sound settings hashToken credentialFingerprint first
      { st with clock := later } where
  current := h.current
  previous := h.previous
  generated := h.generated
  txns t := by
    rcases h.txns t with hempty | ⟨row, matched, request, now, plaintext, htxn, hu⟩
    · exact .inl hempty
    · exact .inr ⟨row, matched, request, now, plaintext, htxn,
        hu.mono rfl rfl (List.Subset.refl _) hlater⟩
  apart := h.apart

theorem Sound.mem_spent
    (h : Sound settings hashToken credentialFingerprint first st)
    (hslot : InSlot hashToken st.server.row token matched) :
    hashToken token ∈ spent hashToken first st := by
  cases matched with
  | current =>
      have hcurrent : st.server.row.tokenHash = hashToken token := hslot
      rw [← hcurrent]
      exact h.current
  | overlap => exact h.previous _ hslot.2

theorem Sound.inserts_fresh
    (h : Sound settings hashToken credentialFingerprint first st) {r : Rotation}
    (hr : r ∈ (st.server.txns t).inserts) :
    hashToken r.agentToken ∉ spent hashToken first st ∧
      r.agentToken ∈ st.server.generated := by
  rcases h.txns t with hempty | ⟨row, matched, request, now, plaintext, htxn, hu⟩
  · rw [hempty] at hr
    cases hr
  · rw [htxn] at hr
    rw [List.mem_singleton.mp hr]
    exact ⟨hu.fresh, hu.made⟩

/-- The handler of a request has run; what it leaves is rolled back or a rotation
of the row as it stands. -/
theorem Sound.serve (h : Sound settings hashToken credentialFingerprint first st)
    {txn : CredentialTxn} (hlater : st.clock ≤ now)
    (hfresh : ∀ other ∈ st.server.generated, hashToken other ≠ hashToken plaintext)
    (htxn : txn = {} ∨ ∃ matched, InSlot hashToken st.server.row request.token matched ∧
      txn = rotationTxn settings hashToken credentialFingerprint st.server.row matched
        request now plaintext) :
    Sound settings hashToken credentialFingerprint first
      { server := st.server.serve t txn plaintext, clock := now } := by
  have hnew : hashToken plaintext ∉ spent hashToken first st := by
    intro hmem
    obtain ⟨other, hother, heq⟩ := List.mem_map.mp (h.generated _ hmem)
    exact hfresh other hother heq
  have hinserts : ∀ r ∈ txn.inserts, r.agentToken = plaintext := by
    intro r hr
    rcases htxn with hempty | ⟨matched, _, htxn⟩
    · rw [hempty] at hr
      cases hr
    · rw [htxn] at hr
      rw [List.mem_singleton.mp hr]
      rfl
  refine ⟨h.current, h.previous, fun hash hhash => ?_, fun u => ?_,
    fun u v huv r hr r' hr' => ?_⟩
  · exact List.mem_cons_of_mem _ (h.generated hash hhash)
  · by_cases hu : u = t
    · rw [hu, CredentialServer.serve_self]
      rcases htxn with hempty | ⟨matched, hslot, htxn⟩
      · exact .inl hempty
      · exact .inr ⟨st.server.row, matched, request, now, plaintext, htxn, hslot,
          Int.le_refl now, h.mem_spent hslot, hnew, List.mem_cons_self, fun _ => rfl⟩
    · rw [CredentialServer.serve_ne hu]
      rcases h.txns u with hempty | ⟨row, matched, request, time, plaintext, htxn, hu⟩
      · exact .inl hempty
      · exact .inr ⟨row, matched, request, time, plaintext, htxn,
          hu.mono rfl rfl (List.subset_cons_self _ _) hlater⟩
  · by_cases hu : u = t
    · rw [hu] at hr huv
      rw [CredentialServer.serve_self] at hr
      rw [CredentialServer.serve_ne huv.symm] at hr'
      rw [hinserts r hr]
      exact (hfresh _ (h.inserts_fresh hr').2).symm
    · rw [CredentialServer.serve_ne hu] at hr
      by_cases hv : v = t
      · rw [hv, CredentialServer.serve_self] at hr'
        rw [hinserts r' hr']
        exact hfresh _ (h.inserts_fresh hr).2
      · rw [CredentialServer.serve_ne hv] at hr'
        exact h.apart u v huv r hr r' hr'

theorem Sound.rollback (h : Sound settings hashToken credentialFingerprint first st) :
    Sound settings hashToken credentialFingerprint first
      { st with server := st.server.rollback t } where
  current := h.current
  previous := h.previous
  generated := h.generated
  txns u := by
    by_cases hu : u = t
    · exact .inl (by rw [hu]; exact CredentialServer.rollback_self)
    · rw [CredentialServer.rollback_ne hu]
      rcases h.txns u with hempty | ⟨row, matched, request, now, plaintext, htxn, hu⟩
      · exact .inl hempty
      · exact .inr ⟨row, matched, request, now, plaintext, htxn,
          hu.mono rfl rfl (List.Subset.refl _) (Int.le_refl _)⟩
  apart u v huv r hr r' hr' := by
    have hkept : ∀ u, ∀ r ∈ ((st.server.rollback t).txns u).inserts,
        r ∈ (st.server.txns u).inserts := by
      intro u r hr
      by_cases hu : u = t
      · rw [hu, CredentialServer.rollback_self] at hr
        cases hr
      · rwa [CredentialServer.rollback_ne hu] at hr
    exact h.apart u v huv r (hkept u r hr) r' (hkept v r' hr')

/-- A commit of nothing. -/
theorem commit_eq_rollback {sv : CredentialServer} (h : sv.txns t = {}) :
    sv.commit t = sv.rollback t := by
  rw [CredentialServer.commit, CredentialServer.rollback, h]
  simp

/-- What the commit of a rotation leaves, if its bearer is the current one. -/
structure Rotated (settings : CredentialSettings)
    (hashToken : String → String) (st : BearerState) (t : Nat) (now : Int)
    (plaintext : String) : Prop where
  timely : now ≤ st.clock
  token : (st.server.commit t).row.tokenHash = hashToken plaintext
  previous : (st.server.commit t).row.previousTokenHash = some st.server.row.tokenHash
  expires : (st.server.commit t).row.previousTokenExpiresAt =
    some (now + seconds settings.agentCredentialOverlapSeconds)
  rotations : ∃ r, (st.server.commit t).rotations = st.server.rotations ++ [r] ∧
    r.agentToken = plaintext ∧ r ∈ (st.server.txns t).inserts

theorem Sound.rotated (h : Sound settings hashToken credentialFingerprint first st)
    (hmay : ByCurrent hashToken st t) (hne : st.server.txns t ≠ {}) :
    ∃ now plaintext, Rotated settings hashToken st t now plaintext := by
  rcases h.txns t with hempty | ⟨row, matched, request, now, plaintext, htxn, hu⟩
  · exact absurd hempty hne
  have hcurrent : st.server.row.tokenHash = hashToken request.token := by
    refine hmay (rotationResponse settings row request now plaintext) ?_
    rw [htxn]
    exact List.mem_singleton_self _
  have hrow := hu.read hcurrent
  have hmatched : matched = .current := by
    cases matched with
    | current => rfl
    | overlap =>
        have hslot := hu.slot
        rw [hrow] at hslot
        exact absurd hcurrent hslot.1
  have hcommit : (st.server.commit t).row =
      rotateAgentCredential settings hashToken credentialFingerprint st.server.row
        .current now request.rotationNonce plaintext := by
    rw [CredentialServer.commit, htxn, hrow, hmatched]
    exact flushCredential_self _ _
  refine ⟨now, plaintext, hu.timely, by rw [hcommit]; rfl, by rw [hcommit]; rfl,
    by rw [hcommit]; rfl, rotationResponse settings row request now plaintext, ?_, rfl, ?_⟩
  · rw [CredentialServer.commit, htxn]
    rfl
  · rw [htxn]
    exact List.mem_singleton_self _

theorem Sound.commit (h : Sound settings hashToken credentialFingerprint first st)
    (hmay : ByCurrent hashToken st t) :
    Sound settings hashToken credentialFingerprint first
      { st with server := st.server.commit t } := by
  by_cases hne : st.server.txns t = {}
  · rw [commit_eq_rollback hne]
    exact h.rollback
  obtain ⟨now, plaintext, hrotated⟩ := h.rotated hmay hne
  obtain ⟨r, hrotations, htoken, hinsert⟩ := hrotated.rotations
  obtain ⟨hfresh, hmade⟩ := h.inserts_fresh hinsert
  have hspent : spent hashToken first { st with server := st.server.commit t } =
      spent hashToken first st ++ [hashToken plaintext] := by
    rw [spent, hrotations, List.map_append, ← List.append_assoc, List.map_singleton,
      htoken]
    rfl
  have hold : ∀ hash ∈ spent hashToken first st,
      hash ∈ spent hashToken first { st with server := st.server.commit t } := by
    intro hash hhash
    rw [hspent]
    exact List.mem_append_left _ hhash
  refine ⟨?_, fun hash hhash => ?_, fun hash hhash => ?_, fun u => ?_,
    fun u v huv r hr r' hr' => ?_⟩
  · rw [hspent]
    exact List.mem_append_right _ (List.mem_singleton.mpr hrotated.token)
  · have heq := hrotated.previous.symm.trans hhash
    rw [← Option.some.inj heq]
    exact hold _ h.current
  · rw [hspent] at hhash
    rcases List.mem_append.mp hhash with hhash | hhash
    · exact h.generated hash hhash
    · rw [List.mem_singleton.mp hhash, ← htoken]
      exact List.mem_map_of_mem hmade
  · by_cases hu : u = t
    · exact .inl (by rw [hu]; exact CredentialServer.commit_self)
    · rw [CredentialServer.commit_ne hu]
      rcases h.txns u with hempty |
        ⟨row, matched, request, time, other, htxn, hunder⟩
      · exact .inl hempty
      · refine .inr ⟨row, matched, request, time, other, htxn, hunder.slot,
          hunder.timely, hold _ hunder.known, ?_, hunder.made, fun hcurrent => ?_⟩
        · -- The two rotations have made different bearers.
          rw [hspent, List.mem_append, not_or]
          refine ⟨hunder.fresh, fun hmem => ?_⟩
          have hapart := h.apart u t hu
            (rotationResponse settings row request time other)
            (by rw [htxn]; exact List.mem_singleton_self _) r hinsert
          rw [htoken] at hapart
          exact hapart (List.mem_singleton.mp hmem)
        · -- The current bearer is a new one, which nobody has used.
          have heq : hashToken plaintext = hashToken request.token :=
            hrotated.token.symm.trans hcurrent
          rw [← htoken] at heq
          rw [heq] at hfresh
          exact absurd hunder.known hfresh
  · have hkept : ∀ u, ∀ r ∈ ((st.server.commit t).txns u).inserts,
        r ∈ (st.server.txns u).inserts := by
      intro u r hr
      by_cases hu : u = t
      · rw [hu, CredentialServer.commit_self] at hr
        cases hr
      · rwa [CredentialServer.commit_ne hu] at hr
    exact h.apart u v huv r (hkept u r hr) r' (hkept v r' hr')

theorem sound_step (h : Sound settings hashToken credentialFingerprint first st)
    (hstep : BearerStep settings hashToken credentialFingerprint
      (ByCurrent hashToken) st st') :
    Sound settings hashToken credentialFingerprint first st' := by
  cases hstep with
  | tick hlater => exact h.tick hlater
  | @serve t request seen now plaintext hidle hseen hnow hfresh hreads =>
      refine @Sound.serve settings hashToken credentialFingerprint first st request now
        plaintext t h _ (Int.le_trans hseen hnow) hfresh ?_
      rcases credentialTxn_cases with hempty | ⟨matched, hslot, _, htxn⟩
      · exact .inl hempty
      · exact .inr ⟨matched, hslot, htxn⟩
  | commit hcommits hmay => exact h.commit hmay
  | rollback => exact h.rollback

theorem clock_step {may : BearerState → Nat → Prop}
    (hstep : BearerStep settings hashToken credentialFingerprint may st st') :
    st.clock ≤ st'.clock := by
  cases hstep with
  | tick hlater => exact hlater
  | serve hidle hseen hnow => exact Int.le_trans hseen hnow
  | commit => exact Int.le_refl _
  | rollback => exact Int.le_refl _

/-! ## How long a bearer lasts -/

/-- The bearer is not the current one, and in the overlap slot it has at most
until the deadline. -/
structure Expires (hashToken : String → String) (token : String) (deadline : Int)
    (row : CredentialRow) : Prop where
  replaced : row.tokenHash ≠ hashToken token
  overlap : row.previousTokenHash = some (hashToken token) →
    ∃ last, row.previousTokenExpiresAt = some last ∧ last ≤ deadline

theorem Expires.mono {deadline deadline' : Int}
    (h : Expires hashToken token deadline row) (hle : deadline ≤ deadline') :
    Expires hashToken token deadline' row := by
  refine ⟨h.replaced, fun hprevious => ?_⟩
  obtain ⟨last, huntil, hbound⟩ := h.overlap hprevious
  exact ⟨last, huntil, Int.le_trans hbound hle⟩

theorem Expires.not_accepted {deadline : Int}
    (h : Expires hashToken token deadline row) (hnow : deadline ≤ now) :
    acceptsBearer settings hashToken row token now = false := by
  by_cases hprevious : row.previousTokenHash = some (hashToken token)
  · obtain ⟨last, huntil, hbound⟩ := h.overlap hprevious
    have hlapsed : ¬ now < last := by omega
    have hmatch : matchOverlap row (hashToken token) now = none := by
      rw [matchOverlap, if_pos hprevious, huntil]
      exact if_neg hlapsed
    rw [acceptsBearer, getCurrentAgent, getAgentForCredentialReattach,
      if_neg h.replaced, if_neg h.replaced, hmatch, ite_self, ite_self]
    rfl
  · exact not_acceptsBearer h.replaced hprevious

/-- A bearer that has been replaced keeps its deadline. -/
theorem Expires.step {deadline : Int}
    (h : Expires hashToken token deadline st.server.row)
    (hsound : Sound settings hashToken credentialFingerprint first st)
    (hspent : hashToken token ∈ spent hashToken first st)
    (hstep : BearerStep settings hashToken credentialFingerprint
      (ByCurrent hashToken) st st') :
    Expires hashToken token deadline st'.server.row := by
  cases hstep with
  | tick hlater => exact h
  | serve hidle hseen hnow hfresh hreads => exact h
  | rollback => exact h
  | @commit t hcommits hmay =>
      by_cases hne : st.server.txns t = {}
      · rw [commit_eq_rollback hne]
        exact h
      obtain ⟨now, plaintext, hrotated⟩ := hsound.rotated hmay hne
      obtain ⟨r, _, htoken, hinsert⟩ := hrotated.rotations
      refine ⟨fun heq => ?_, fun hprevious => ?_⟩
      · have hfresh := (hsound.inserts_fresh hinsert).1
        rw [htoken, ← hrotated.token, heq] at hfresh
        exact hfresh hspent
      · exact absurd (Option.some.inj (hrotated.previous.symm.trans hprevious))
          h.replaced

/-- The commit that replaces a bearer gives it the overlap. -/
theorem expires_step
    (hsound : Sound settings hashToken credentialFingerprint first st)
    (hcurrent : st.server.row.tokenHash = hashToken token)
    (hstep : BearerStep settings hashToken credentialFingerprint
      (ByCurrent hashToken) st st') :
    st'.server.row.tokenHash = hashToken token ∨
      Expires hashToken token
        (st'.clock + seconds settings.agentCredentialOverlapSeconds)
        st'.server.row := by
  by_cases hnew : st'.server.row.tokenHash = hashToken token
  · exact .inl hnew
  refine .inr ⟨hnew, fun _ => ?_⟩
  cases hstep with
  | tick hlater => exact absurd hcurrent hnew
  | serve hidle hseen hnow hfresh hreads => exact absurd hcurrent hnew
  | rollback => exact absurd hcurrent hnew
  | @commit t hcommits hmay =>
      by_cases hne : st.server.txns t = {}
      · rw [commit_eq_rollback hne] at hnew
        exact absurd hcurrent hnew
      obtain ⟨now, plaintext, hrotated⟩ := hsound.rotated hmay hne
      exact ⟨_, hrotated.expires, Int.add_le_add_right hrotated.timely _⟩

theorem spent_step {may : BearerState → Nat → Prop}
    (hstep : BearerStep settings hashToken credentialFingerprint may st st') :
    spent hashToken first st ⊆ spent hashToken first st' := by
  cases hstep with
  | tick hlater => exact List.Subset.refl _
  | serve hidle hseen hnow hfresh hreads => exact List.Subset.refl _
  | rollback => exact List.Subset.refl _
  | @commit t hcommits hmay =>
      intro hash hhash
      rw [spent, CredentialServer.commit, List.map_append, ← List.append_assoc]
      exact List.mem_append_left _ hhash

theorem sound_run (h : Sound settings hashToken credentialFingerprint first st)
    (hrun : BearerRun settings hashToken credentialFingerprint
      (ByCurrent hashToken) st st') :
    Sound settings hashToken credentialFingerprint first st' := by
  induction hrun with
  | refl => exact h
  | tail _ hstep ih => exact sound_step ih hstep

theorem spent_run {may : BearerState → Nat → Prop}
    (hrun : BearerRun settings hashToken credentialFingerprint may st st') :
    spent hashToken first st ⊆ spent hashToken first st' := by
  induction hrun with
  | refl => exact List.Subset.refl _
  | tail _ hstep ih => exact List.Subset.trans ih (spent_step hstep)

/-- From a state in which it is current, a bearer stays current or expires. -/
theorem expires_run (hsound : Sound settings hashToken credentialFingerprint first st)
    (hcurrent : st.server.row.tokenHash = hashToken token)
    (hrun : BearerRun settings hashToken credentialFingerprint
      (ByCurrent hashToken) st st') :
    st'.server.row.tokenHash = hashToken token ∨
      Expires hashToken token
        (st'.clock + seconds settings.agentCredentialOverlapSeconds)
        st'.server.row := by
  induction hrun with
  | refl => exact .inl hcurrent
  | tail hprior hstep ih =>
      have hmid := sound_run hsound hprior
      rcases ih with hkept | hexpires
      · exact expires_step hmid hkept hstep
      · have hspent := spent_run hprior (hcurrent ▸ hsound.current)
        exact .inr ((hexpires.step hmid hspent hstep).mono
          (Int.add_le_add_right (clock_step hstep) _))

theorem Expires.run {deadline : Int}
    (h : Expires hashToken token deadline st.server.row)
    (hsound : Sound settings hashToken credentialFingerprint first st)
    (hspent : hashToken token ∈ spent hashToken first st)
    (hrun : BearerRun settings hashToken credentialFingerprint
      (ByCurrent hashToken) st st') :
    Expires hashToken token deadline st'.server.row := by
  induction hrun with
  | refl => exact h
  | tail hprior hstep ih =>
      exact ih.step (sound_run hsound hprior) (spent_run hprior hspent) hstep

end Bearers

/-- In every run whose rotations are requested with the current bearer: a bearer
that has been current and is not any more is accepted at no time later than the
overlap after that. -/
theorem superseded_expire_while (settings : CredentialSettings)
    (hashToken credentialFingerprint : String → String)
    (start held replaced later : BearerState) (token : String) (now : Int)
    (hstart : Started hashToken start)
    (hheld : BearerRun settings hashToken credentialFingerprint
      (ByCurrent hashToken) start held)
    (hcurrent : held.server.row.tokenHash = hashToken token)
    (hreplaced : BearerRun settings hashToken credentialFingerprint
      (ByCurrent hashToken) held replaced)
    (hnew : replaced.server.row.tokenHash ≠ hashToken token)
    (hlater : BearerRun settings hashToken credentialFingerprint
      (ByCurrent hashToken) replaced later)
    (hnow : replaced.clock + seconds settings.agentCredentialOverlapSeconds ≤ now) :
    acceptsBearer settings hashToken later.server.row token now = false := by
  have hsound : Sound settings hashToken credentialFingerprint _ held :=
    sound_run (sound_started hstart) hheld
  have hexpires := (expires_run hsound hcurrent hreplaced).resolve_left hnew
  have hspent := spent_run hreplaced (hcurrent ▸ hsound.current)
  exact (hexpires.run (sound_run hsound hreplaced) hspent hlater).not_accepted hnow

/-! ## A bearer that renews its own life -/

/-- An agent that was enrolled with the bearer `A`. -/
def enrolledState : BearerState where
  server :=
    { row := { tokenHash := "A", credentialExpiresAt := some (seconds 86400) }
      generated := ["A"] }
  clock := 0

/-- A renewal with the bearer `A`. -/
def renewal (st : BearerState) (nonce plaintext : String) (now : Int) : CredentialTxn :=
  credentialTxn {} id id st.server.row ⟨.renew, "A", nonce⟩ now now plaintext

def served (st : BearerState) (txn : CredentialTxn) (plaintext : String) (now : Int) :
    BearerState where
  server := st.server.serve 0 txn plaintext
  clock := now

def committed (st : BearerState) : BearerState :=
  { st with server := st.server.commit 0 }

theorem commit_serve_txns {sv : CredentialServer} {txn : CredentialTxn}
    {plaintext : String} (hidle : sv.txns = fun _ => {}) :
    ((sv.serve 0 txn plaintext).commit 0).txns = fun _ => {} := by
  funext u
  by_cases hu : u = 0
  · rw [hu]
    exact CredentialServer.commit_self
  · rw [CredentialServer.commit_ne hu, CredentialServer.serve_ne hu, hidle]

/-- What is served alone can be committed. -/
theorem serve_commits {sv : CredentialServer} {txn : CredentialTxn} {plaintext : String}
    (hidle : sv.txns = fun _ => {}) (hguard : ∀ w ∈ txn.writes, ∀ r, w.guard r = true) :
    (sv.serve 0 txn plaintext).store.Commits 0 := by
  refine ⟨fun w _ => ?_, fun w hw r _ => ?_⟩
  · rintro ⟨u, hu, hheld⟩
    have hheld' : w.key ∈ ((sv.serve 0 txn plaintext).txns u).held := hheld
    rw [CredentialServer.serve_ne hu, hidle] at hheld'
    cases hheld'
  · have hw' : w ∈ ((sv.serve 0 txn plaintext).txns 0).writes := hw
    rw [CredentialServer.serve_self] at hw'
    exact hguard w hw' r

theorem renewal_cases (st : BearerState) (nonce plaintext : String) (now : Int) :
    renewal st nonce plaintext now = {} ∨ ∃ matched,
      renewal st nonce plaintext now = rotationTxn {} id id st.server.row matched
        ⟨.renew, "A", nonce⟩ now plaintext := by
  rcases @credentialTxn_cases {} id id st.server.row ⟨.renew, "A", nonce⟩ now now plaintext
    with hempty | ⟨matched, _, _, htxn⟩
  · exact .inl hempty
  · exact .inr ⟨matched, htxn⟩

/-- A renewal holds nothing, and reads the row as it stands. -/
theorem renewal_reads {st : BearerState} {txn : CredentialTxn} {nonce plaintext : String}
    {now : Int} (h : renewal st nonce plaintext now = txn) :
    st.server.store.Reads 0 txn ∧ ∀ w ∈ txn.writes, ∀ r, w.guard r = true := by
  rcases renewal_cases st nonce plaintext now with hempty | ⟨matched, htxn⟩
  · rw [← h, hempty]
    exact ⟨⟨fun w hw => absurd hw List.not_mem_nil, fun k hk => absurd hk List.not_mem_nil,
      fun w _ => List.not_mem_nil⟩, fun w hw => absurd hw List.not_mem_nil⟩
  · rw [← h, htxn]
    refine ⟨⟨fun w hw => ?_, fun k hk => absurd hk List.not_mem_nil,
      fun w _ => List.not_mem_nil⟩, fun w hw r => ?_⟩
    · rw [List.mem_singleton.mp hw]
      rfl
    · rw [List.mem_singleton.mp hw]

theorem renewal_run {may : BearerState → Nat → Prop} {st : BearerState}
    {txn : CredentialTxn} {nonce plaintext : String} {now : Int}
    (h : renewal st nonce plaintext now = txn) (hidle : st.server.txns = fun _ => {})
    (hclock : st.clock ≤ now) (hfresh : ∀ other ∈ st.server.generated, other ≠ plaintext)
    (hmay : may (served st txn plaintext now) 0) :
    BearerRun {} id id may st (committed (served st txn plaintext now)) := by
  obtain ⟨hreads, hguard⟩ := renewal_reads h
  have hserve : BearerStep {} id id may st (served st txn plaintext now) := by
    subst h
    exact .serve (by rw [hidle]) hclock (Int.le_refl now) hfresh hreads
  have hcommit : BearerStep {} id id may (served st txn plaintext now)
      (committed (served st txn plaintext now)) :=
    .commit (serve_commits hidle hguard) hmay
  exact (Relation.ReflTransGen.single hserve).tail hcommit

/-- The bearer is renewed at once. -/
def firstRenewal : BearerState :=
  committed (served enrolledState (renewal enrolledState "0000000000000001" "B" 0) "B" 0)

/-- The superseded bearer renews a second before it expires. -/
def secondRenewal : BearerState :=
  committed (served firstRenewal
    (renewal firstRenewal "0000000000000002" "C" (seconds 599)) "C" (seconds 599))

theorem enrolledState_started : Started id enrolledState where
  txns := rfl
  rotations := rfl
  current := List.mem_singleton_self _
  previous _ h := by cases h

theorem superseded_expire_while_renewal :
    acceptsBearer {} id firstRenewal.server.row "A" (seconds 600) = false := by
  have hrun : BearerRun {} id id (ByCurrent id) enrolledState firstRenewal :=
    renewal_run rfl rfl (Int.le_refl 0) (by decide) (by unfold ByCurrent; decide)
  exact superseded_expire_while {} id id enrolledState enrolledState firstRenewal
    firstRenewal "A" (seconds 600) enrolledState_started Relation.ReflTransGen.refl rfl
    hrun (by decide) Relation.ReflTransGen.refl (by decide)

/-- Bearer `A` is accepted when the overlap after it was replaced has passed. -/
theorem superseded_extended :
    ¬ ∀ held replaced later now,
        BearerRun {} id id (fun _ _ => True) enrolledState held →
        held.server.row.tokenHash = "A" →
        BearerRun {} id id (fun _ _ => True) held replaced →
        replaced.server.row.tokenHash ≠ "A" →
        BearerRun {} id id (fun _ _ => True) replaced later →
        replaced.clock + seconds 600 ≤ now →
        acceptsBearer {} id later.server.row "A" now = false := by
  intro h
  have hfirst : BearerRun {} id id (fun _ _ => True) enrolledState firstRenewal :=
    renewal_run rfl rfl (Int.le_refl 0) (by decide) trivial
  have hsecond : BearerRun {} id id (fun _ _ => True) firstRenewal secondRenewal :=
    renewal_run rfl (commit_serve_txns rfl) (by decide) (by decide) trivial
  have haccepted : acceptsBearer {} id secondRenewal.server.row "A" (seconds 600) = true := by
    decide
  have hrefused := h enrolledState firstRenewal secondRenewal (seconds 600)
    Relation.ReflTransGen.refl rfl hfirst (by decide) hsecond (by decide)
  exact absurd (haccepted.symm.trans hrefused) (by decide)

end NodeLink.Proofs.SupersededBearers
