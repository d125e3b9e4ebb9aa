import NodeLink.Proofs.TerminalRecords

/-!
# Two-person authorization

A command that cites an approval is created by the commit that spends the
approval. What the dispatch checked of the row it read still holds of the row
that is spent: its terms never change, its status is the condition of the
spend, decisions are only ever added, and one that rejects closes the row for
good. Nothing is asked of the order in which the other requests commit, so a
spent approval may later read as cancelled; it can still not be spent again.
-/

namespace NodeLink.Proofs

open Lib Server

/-- The commands that cite a request. -/
def citing (store : AuthStore) (id : String) : List DispatchedCommand :=
  store.commands.filter fun c => decide (c.approvalRequestID = some id)

/-- The operator is enabled, acts for the agent's client and is authorized for
the kind on the agent. -/
structure Eligible (auth : Authority) (operator : Operator)
    (agent : AgentPlace) (kind : CommandKind) : Prop where
  enabled : operator.disabled = false
  tenant : operator.isPlatformAdmin = true ∨
    ∃ role, auth.membership operator (auth.agentClientID agent) = some role ∧
      ClientRole.clientOperator.rank ≤ role.rank
  authorized : (authorizeCommand operator agent kind).allowed = true

/-- Somebody else than the sender of the command approved the request and is
eligible. -/
structure Approved (s : AuthState) (c : DispatchedCommand) (id siteID : String)
    (operatorID : String) : Prop where
  decided : ∃ d ∈ s.store.decisionsOf id,
    d.operatorID = operatorID ∧ d.decision = .approve
  other : operatorID ≠ c.actorOperatorID
  eligible : ∃ operator, s.tables.operators operatorID = some operator ∧
    Eligible s.tables.toAuthority operator ⟨c.agentID, siteID⟩ c.kind

/-- The request as it stands is one the command may be created under, but for
the submitted payload, of which the digest is compared. -/
structure Granted (sha256Hex : Bytes → String) (s : AuthState)
    (c : DispatchedCommand) (id : String) (r : ApprovalRequest)
    (siteID : String) : Prop where
  row : s.store.requestAt id = some r
  site : s.tables.directory.agentSite c.agentID = some siteID
  approved : r.status = .approved
  unexpired : c.createdAt < r.expiresAt
  sameAgent : r.agentID = c.agentID
  sameKind : r.kind = c.kind
  sameDigest : bindingDigest sha256Hex r.agentID r.kind r.payload =
    bindingDigest sha256Hex c.agentID c.kind c.submitted
  requester : r.requestedByOperatorID = some c.actorOperatorID
  unrejected : ∀ d ∈ s.store.decisionsOf id, d.decision ≠ .reject
  quorum : ∃ operators : List String, operators.Nodup ∧
    r.requiredApprovals ≤ operators.length ∧
    ∀ operatorID ∈ operators, Approved s c id siteID operatorID

/-! ## Reading the records -/

theorem mem_decisionsOf {store : AuthStore} {id : String}
    {d : ApprovalDecision} :
    d ∈ store.decisionsOf id ↔
      AuthInsert.decision d ∈ store.inserted ∧ d.requestID = id := by
  rw [AuthStore.decisionsOf, List.mem_filterMap]
  constructor
  · intro ⟨a, ha, hd⟩
    cases a with
    | command c => cases hd
    | decision e =>
        simp only at hd
        split at hd
        · next hid =>
            obtain rfl := Option.some.inj hd
            exact ⟨ha, hid⟩
        · cases hd
  · intro ⟨hd, hid⟩
    exact ⟨_, hd, if_pos hid⟩

theorem mem_commands {store : AuthStore} {c : DispatchedCommand} :
    c ∈ store.commands ↔ AuthInsert.command c ∈ store.inserted := by
  rw [AuthStore.commands, List.mem_filterMap]
  constructor
  · intro ⟨a, ha, hc⟩
    cases a with
    | decision d => cases hc
    | command e =>
        cases hc
        exact ha
  · intro hc
    exact ⟨_, hc, rfl⟩

theorem mem_citing {store : AuthStore} {c : DispatchedCommand} {id : String} :
    c ∈ citing store id ↔
      AuthInsert.command c ∈ store.inserted ∧ c.approvalRequestID = some id := by
  rw [citing, List.mem_filter, mem_commands, decide_eq_true_iff]

theorem requestAt_eq_some {store : AuthStore} {id : String}
    {r : ApprovalRequest} :
    store.requestAt id = some r ↔
      store.table (.request id) = some (.request r) := by
  rw [AuthStore.requestAt]
  constructor
  · intro h
    split at h
    · next r' hr' =>
        obtain rfl := Option.some.inj h
        exact hr'
    · cases h
  · intro h
    rw [h]

/-- The row of a request in an orderly state. -/
theorem Orderly.requestRow {s : AuthState} (h : Orderly s) {id : String}
    {row : AuthRecord} (hrow : s.store.table (.request id) = some row) :
    ∃ r, row = .request r ∧ s.store.requestAt id = some r := by
  cases row with
  | override o => exact (h.fits _ _ hrow).elim
  | request r => exact ⟨r, rfl, requestAt_eq_some.mpr hrow⟩

/-! ## What a dispatch has checked -/

theorem clientAction_allowed {auth : Authority} {operator : Operator}
    {clientID : Option String} {minimum : ClientRole}
    (h : auth.clientAction operator clientID minimum = .allowed) :
    operator.isPlatformAdmin = true ∨
      ∃ role, auth.membership operator clientID = some role ∧
        minimum.rank ≤ role.rank := by
  rw [Authority.clientAction] at h
  split at h
  · next hadmin => exact .inl hadmin
  · split at h
    · cases h
    · next role hrole =>
        split at h
        · next hpermits => exact .inr ⟨role, hrole, of_decide_eq_true hpermits⟩
        · cases h

theorem eligible_of_approverEligible {auth : Authority} {operator : Operator}
    {agent : AgentPlace} {kind : CommandKind} {requester : Option String}
    (h : approverEligible auth operator agent kind requester = true) :
    requester ≠ some operator.id ∧ Eligible auth operator agent kind := by
  rw [approverEligible, Option.isNone_iff_eq_none, approverRefusal] at h
  split at h
  · cases h
  · next henabled =>
      split at h
      · cases h
      · next hother =>
          split at h
          · cases h
          · cases h
          · next htenant =>
              split at h
              · next hauthorized =>
                  exact ⟨hother, Bool.eq_false_iff.mpr henabled,
                    clientAction_allowed htenant, hauthorized⟩
              · cases h

/-- A dispatch under way that cites a request: what it read of the request and
its decisions allowed the spend. -/
structure ReadyToSpend (sha256Hex : Bytes → String) (s : AuthState) (t : Nat)
    (c : DispatchedCommand) (id : String) (r : ApprovalRequest)
    (decisions : List ApprovalDecision) (operator : Operator)
    (siteID : String) : Prop where
  sender : c.actorOperatorID = operator.id
  site : s.tables.directory.agentSite c.agentID = some siteID
  writes : (s.store.txns t).writes = [spendApproval id r c.createdAt]
  spendable : Spendable sha256Hex s.tables.toAuthority r decisions operator
    ⟨c.agentID, siteID⟩ c.kind c.submitted c.createdAt
  terms : ∃ now, s.store.requestAt id = some now ∧
    requestTerms now = requestTerms r
  recorded : List.Sublist decisions (s.store.decisionsOf id)

/-- Only a dispatch creates a command. -/
theorem dispatch_of_command {sha256Hex : Bytes → String}
    {tables : ApprovalTables} {store : AuthStore} {operator : Operator}
    {now : Int} {request : AuthRequest} {c : DispatchedCommand}
    (hc : AuthInsert.command c ∈
      (request.txn sha256Hex tables store operator now).inserts) :
    ∃ body, request = .dispatch body := by
  cases request with
  | dispatch body => exact ⟨body, rfl⟩
  | get id =>
      simp only [AuthRequest.txn, getApprovalRequest, expireRequest] at hc
      split at hc
      · cases hc
      · split at hc <;> cases hc
  | list ids => cases hc
  | cancel id reason =>
      simp only [AuthRequest.txn, cancelRequest, expireRequest] at hc
      split at hc
      · cases hc
      · split_ifs at hc <;> cases hc
  | decide verdict id reason =>
      simp only [AuthRequest.txn, recordDecision, expireRequest] at hc
      split at hc
      · cases hc
      · split at hc
        · cases hc
        · split at hc
          · cases hc
          · split_ifs at hc
            · cases hc
            · cases List.mem_singleton.mp hc
            · cases hc
  | getOverride id =>
      simp only [AuthRequest.txn, getEmergencyOverride, expireOverride] at hc
      split at hc
      · cases hc
      · split at hc <;> cases hc
  | listOverrides ids => cases hc
  | revoke id reason =>
      simp only [AuthRequest.txn, revokeEmergencyOverride, expireOverride] at hc
      split at hc
      · cases hc
      · split_ifs at hc <;> cases hc

section Dispatch

variable {sha256Hex : Bytes → String} {tables : ApprovalTables}
variable {store : AuthStore} {operator : Operator} {now : Int}
variable {c : DispatchedCommand} {id : String}

theorem citing_approved {agent : AgentPlace} {body : DispatchRequest}
    {id' : String} (hid' : body.approvalRequestID = some id')
    (hc : AuthInsert.command c ∈ (dispatchApproved tables store sha256Hex
      operator agent body id' now).inserts)
    (hid : c.approvalRequestID = some id) :
    c = dispatchedCommand operator body now ∧ id' = id ∧
      ∃ r, store.requestAt id = some r ∧
        (dispatchApproved tables store sha256Hex operator agent body id'
          now).writes = [spendApproval id r c.createdAt] ∧
        Spendable sha256Hex tables.toAuthority r (store.decisionsOf id) operator
          agent body.kind body.payload now := by
  rw [dispatchApproved] at hc ⊢
  split at hc
  · cases hc
  · next r hr =>
      split at hc
      · cases hc
      · next hclient =>
          split at hc
          · cases hc
          · next hdue =>
              split at hc
              · next hallowed =>
                  cases List.mem_singleton.mp hc
                  obtain rfl := Option.some.inj (hid'.symm.trans hid)
                  refine ⟨rfl, rfl, r, hr, ?_, spendable_of_allowed hallowed⟩
                  rw [if_neg hclient, if_neg hdue, if_pos hallowed]
                  rfl
              · cases hc

theorem citing_dispatch {body : DispatchRequest}
    (hc : AuthInsert.command c ∈
      (dispatchCommand tables store sha256Hex operator body now).inserts)
    (hid : c.approvalRequestID = some id) :
    ∃ r siteID, store.requestAt id = some r ∧
      tables.directory.agentSite c.agentID = some siteID ∧
      c.actorOperatorID = operator.id ∧
      (dispatchCommand tables store sha256Hex operator body now).writes =
        [spendApproval id r c.createdAt] ∧
      Spendable sha256Hex tables.toAuthority r (store.decisionsOf id) operator
        ⟨c.agentID, siteID⟩ c.kind c.submitted c.createdAt := by
  rw [dispatchCommand] at hc ⊢
  split at hc
  · cases hc
  · next siteID hsite =>
      split at hc
      · cases hc
      · next hvisible =>
          split at hc
          · cases hc
          · next hupdate =>
              split at hc
              · next hallowed =>
                  rw [gateDispatch] at hc
                  split at hc
                  · next _ happroval _ =>
                      cases List.mem_singleton.mp hc
                      cases happroval.symm.trans hid
                  · cases hc
                  · cases hc
                  · next o hpolicy happroval hoverride =>
                      rw [dispatchOverridden] at hc
                      split at hc
                      · cases hc
                      · split_ifs at hc
                        · cases hc
                        · cases hc
                        · cases List.mem_singleton.mp hc
                          cases happroval.symm.trans hid
                        · cases hc
                  · next policy id' hpolicy happroval hoverride =>
                      obtain ⟨rfl, rfl, r, hr, hwrites, hspendable⟩ :=
                        citing_approved happroval hc hid
                      refine ⟨r, siteID, hr, hsite, rfl, ?_, hspendable⟩
                      rw [if_neg hvisible, if_neg hupdate, if_pos hallowed,
                        gateDispatch]
                      simp only [hpolicy, happroval, hoverride]
                      exact hwrites
                  · cases hc
              · cases hc

end Dispatch

/-! ## Rows and decisions over a step -/

section Steps

variable {sha256Hex : Bytes → String} {may : Permitted} {s s' : AuthState}

/-- A row keeps its terms, and stays closed once it is. -/
theorem row_step (h : Orderly s) (hs : AuthStep sha256Hex may s s')
    {k : RecordKey} {row : AuthRecord} (hrow : s.store.table k = some row) :
    ∃ row', s'.store.table k = some row' ∧
      recordTerms row' = recordTerms row ∧
      (row.status.terminal = true → row'.status.terminal = true) := by
  cases hs with
  | receive | rollback | edit => exact ⟨row, hrow, rfl, fun hclosed => hclosed⟩
  | commit t hmay hcommits hunique =>
      show ∃ row', RowStore.written (s.store.txns t).writes s.store.table k =
        some row' ∧ _
      rw [RowStore.written]
      split
      · next w hw =>
          obtain ⟨hmem, hkey⟩ := RowStore.find_key hw
          rw [hrow]
          refine ⟨w.edit row, rfl, ((h.prepared t).modest w hmem).terms row, ?_⟩
          intro hclosed
          rcases (h.prepared t).closes w hmem with hcloses | ⟨hheld, hpending⟩
          · exact hcloses row (hkey ▸ h.fits k row hrow)
          · -- the write that approves holds the row, so it read this one
            have hread := h.held.fresh t w hmem hheld
            rw [hkey, hrow] at hread
            obtain rfl := Option.some.inj hread
            rw [hpending] at hclosed
            cases hclosed
      · exact ⟨row, hrow, rfl, fun hclosed => hclosed⟩
  | create id operatorID agentID kind payload reason openRequests now
      hoperator hfresh hcreated =>
      refine ⟨row, ?_, rfl, fun hclosed => hclosed⟩
      have hne : k ≠ .request id := by
        intro he
        rw [he, hfresh] at hrow
        cases hrow
      show Function.update s.store.table _ _ k = some row
      rw [Function.update_of_ne hne]
      exact hrow
  | activate id operatorID agentID kind payload justification ttlSeconds
      openCount now hoperator hfresh hcreated =>
      refine ⟨row, ?_, rfl, fun hclosed => hclosed⟩
      have hne : k ≠ .override id := by
        intro he
        rw [he, hfresh] at hrow
        cases hrow
      show Function.update s.store.table _ _ k = some row
      rw [Function.update_of_ne hne]
      exact hrow

theorem request_step (h : Orderly s) (hs : AuthStep sha256Hex may s s')
    {id : String} {r : ApprovalRequest} (hr : s.store.requestAt id = some r) :
    ∃ r', s'.store.requestAt id = some r' ∧ requestTerms r' = requestTerms r ∧
      (r.status.live = false → r'.status.live = false) := by
  obtain ⟨row, hrow, hterms, hclosed⟩ :=
    row_step h hs (requestAt_eq_some.mp hr)
  obtain ⟨r', rfl, hr'⟩ := (orderly_step h hs).requestRow hrow
  refine ⟨r', hr', AuthRecord.request.inj hterms, fun hlive => ?_⟩
  have hdone : (!r'.status.live) = true := hclosed <| by
    show (!r.status.live) = true
    rw [hlive]
    rfl
  exact (Bool.not_eq_true' _).mp hdone

/-- Records are only ever added. -/
theorem inserted_step (hs : AuthStep sha256Hex may s s') :
    s'.store.inserted = s.store.inserted ∨
      ∃ t, s.store.Commits t ∧ s.UniqueDecisions t ∧
        s' = { s with store := s.store.commit t } := by
  cases hs with
  | commit t hmay hcommits hunique => exact .inr ⟨t, hcommits, hunique, rfl⟩
  | receive | rollback | create | activate | edit => exact .inl rfl

/-- The request is closed. -/
def Closed (s : AuthState) (id : String) : Prop :=
  ∃ r, s.store.requestAt id = some r ∧ r.status.live = false

theorem closed_step (h : Orderly s) (hs : AuthStep sha256Hex may s s')
    {id : String} (hclosed : Closed s id) : Closed s' id := by
  obtain ⟨r, hr, hlive⟩ := hclosed
  obtain ⟨r', hr', -, hstays⟩ := request_step h hs hr
  exact ⟨r', hr', hstays hlive⟩

/-- What holds of the requests, decisions and commands in every run. -/
structure Backed (sha256Hex : Bytes → String) (s : AuthState) : Prop where
  orderly : Orderly s
  bound : ∀ id r, s.store.requestAt id = some r →
    r.payloadSHA256 = bindingDigest sha256Hex r.agentID r.kind r.payload
  spent : ∀ id, ∀ c ∈ citing s.store id, Closed s id
  rejected : ∀ id, ∀ d ∈ s.store.decisionsOf id, d.decision = .reject →
    Closed s id
  once : ∀ id, (citing s.store id).length ≤ 1
  votes : ∀ id, ((s.store.decisionsOf id).map (·.operatorID)).Nodup
  ready : ∀ t c id, AuthInsert.command c ∈ (s.store.txns t).inserts →
    c.approvalRequestID = some id → ∃ r decisions operator siteID,
      ReadyToSpend sha256Hex s t c id r decisions operator siteID

theorem backed_start (h : AuthStart s) : Backed sha256Hex s where
  orderly := (AuthStart.quiet h).orderly
  bound := by
    intro id r hr
    rw [requestAt_eq_some, h.blank] at hr
    cases hr
  spent := by
    intro id c hc
    rw [mem_citing, h.unrecorded] at hc
    exact absurd hc.1 List.not_mem_nil
  rejected := by
    intro id d hd
    rw [mem_decisionsOf, h.unrecorded] at hd
    exact absurd hd.1 List.not_mem_nil
  once := by
    intro id
    rw [citing, AuthStore.commands, h.unrecorded]
    exact Nat.zero_le 1
  votes := by
    intro id
    rw [AuthStore.decisionsOf, h.unrecorded]
    exact List.nodup_nil
  ready := by
    intro t c id hc
    rw [h.idle] at hc
    exact absurd hc List.not_mem_nil

/-! ## The commit of a dispatch -/

theorem fields_of_terms {r r' : ApprovalRequest}
    (h : requestTerms r = requestTerms r') :
    r.agentID = r'.agentID ∧ r.kind = r'.kind ∧ r.payload = r'.payload ∧
      r.payloadSHA256 = r'.payloadSHA256 ∧
      r.requiredApprovals = r'.requiredApprovals ∧
      r.requestedByOperatorID = r'.requestedByOperatorID ∧
      r.expiresAt = r'.expiresAt := by
  rw [requestTerms, requestTerms, ApprovalRequest.mk.injEq] at h
  obtain ⟨hagent, -, -, hkind, hpayload, hdigest, -, hneeded, hrequester, -, -,
    -, -, hexpiry, -⟩ := h
  exact ⟨hagent, hkind, hpayload, hdigest, hneeded, hrequester, hexpiry⟩

theorem guard_of_commits {t : Nat} (hcommits : s.store.Commits t)
    {id : String} {r r' : ApprovalRequest} {now : Int}
    (hwrites : (s.store.txns t).writes = [spendApproval id r now])
    (hr' : s.store.requestAt id = some r') : r'.status = .approved := by
  have hmem : spendApproval id r now ∈ (s.store.txns t).writes := by
    rw [hwrites]
    exact List.mem_singleton_self _
  have hguard := hcommits.guarded _ hmem _ (requestAt_eq_some.mp hr')
  exact RecordStatus.request.inj (of_decide_eq_true hguard)

theorem Backed.granted (h : Backed sha256Hex s) {t : Nat}
    (hcommits : s.store.Commits t) {c : DispatchedCommand} {id : String}
    (hc : AuthInsert.command c ∈ (s.store.txns t).inserts)
    (hid : c.approvalRequestID = some id) :
    ∃ r siteID, Granted sha256Hex s c id r siteID := by
  obtain ⟨r₀, decisions, operator, siteID, hready⟩ := h.ready t c id hc hid
  obtain ⟨r, hr, hterms⟩ := hready.terms
  have hspendable := hready.spendable
  have happroved := guard_of_commits hcommits hready.writes hr
  obtain ⟨hagent, hkind, -, hdigest, hneeded, hrequester, hexpiry⟩ :=
    fields_of_terms hterms
  refine ⟨r, siteID, ?_⟩
  constructor
  case row => exact hr
  case site => exact hready.site
  case approved => exact happroved
  case unexpired => exact hexpiry ▸ hspendable.unexpired
  case sameAgent => exact hagent.trans hspendable.sameAgent
  case sameKind => exact hkind.trans hspendable.sameKind
  case sameDigest =>
    rw [← h.bound id r hr, hdigest]
    exact hspendable.samePayload
  case requester =>
    rw [hrequester, hspendable.requester, hready.sender]
  case unrejected =>
    intro d hd hreject
    obtain ⟨r', hr', hlive⟩ := h.rejected id d hd hreject
    obtain rfl := Option.some.inj (hr.symm.trans hr')
    rw [happroved] at hlive
    cases hlive
  case quorum =>
    refine ⟨stillEligible s.tables.toAuthority r₀ decisions
      ⟨c.agentID, siteID⟩ c.kind, ?_, hneeded ▸ hspendable.enough, ?_⟩
    · have hvotes : (approvers decisions).Nodup := (h.votes id).sublist
        ((List.filter_sublist.trans hready.recorded).map _)
      exact hvotes.filter _
    · intro operatorID hmem
      obtain ⟨hvoted, hany⟩ := List.mem_filter.mp hmem
      obtain ⟨d, hd, hvoter⟩ := List.mem_map.mp hvoted
      obtain ⟨hd, happrove⟩ := List.mem_filter.mp hd
      obtain ⟨approver, happrover, hchecked⟩ := (Option.any_eq_true _ _).mp hany
      obtain ⟨hother, heligible⟩ := eligible_of_approverEligible hchecked
      refine ⟨⟨d, hready.recorded.subset hd, hvoter, of_decide_eq_true happrove⟩,
        ?_, approver, happrover, heligible⟩
      intro hsame
      apply hother
      rw [hspendable.requester, ← hready.sender, ← hsame,
        s.tables.operators_id _ _ happrover]

/-! ## One step -/

theorem decisionsOf_append (store : AuthStore) (id : String)
    (more : List AuthInsert) (table : RecordKey → Option AuthRecord)
    (txns : Nat → AuthTxn) :
    AuthStore.decisionsOf ⟨table, store.inserted ++ more, txns⟩ id =
      store.decisionsOf id ++ AuthStore.decisionsOf ⟨table, more, txns⟩ id :=
  List.filterMap_append

theorem citing_append (store : AuthStore) (id : String)
    (more : List AuthInsert) (table : RecordKey → Option AuthRecord)
    (txns : Nat → AuthTxn) :
    citing ⟨table, store.inserted ++ more, txns⟩ id =
      citing store id ++ citing ⟨table, more, txns⟩ id := by
  rw [citing, citing, citing, AuthStore.commands, AuthStore.commands,
    List.filterMap_append, List.filter_append]
  rfl

/-- A dispatch stays ready while the authority it read stays and the records
only grow. -/
theorem ReadyToSpend.later (h : Orderly s) {t : Nat} {c : DispatchedCommand}
    {id : String} {r : ApprovalRequest} {decisions : List ApprovalDecision}
    {operator : Operator} {siteID : String}
    (hready : ReadyToSpend sha256Hex s t c id r decisions operator siteID)
    (hs : AuthStep sha256Hex may s s') (htables : s'.tables = s.tables)
    (htxn : s'.store.txns t = s.store.txns t) :
    ReadyToSpend sha256Hex s' t c id r decisions operator siteID := by
  obtain ⟨now, hnow, hterms⟩ := hready.terms
  obtain ⟨now', hnow', hterms', -⟩ := request_step h hs hnow
  refine ⟨hready.sender, htables ▸ hready.site, htxn ▸ hready.writes,
    htables ▸ hready.spendable, ⟨now', hnow', hterms'.trans hterms⟩, ?_⟩
  rcases inserted_step hs with hsame | ⟨u, -, -, rfl⟩
  · rw [AuthStore.decisionsOf, hsame]
    exact hready.recorded
  · show List.Sublist decisions (AuthStore.decisionsOf ⟨_, _ ++ _, _⟩ id)
    rw [decisionsOf_append]
    exact hready.recorded.trans (List.sublist_append_left _ _)

/-- A request that was not there has just been raised. -/
theorem created_of_new (hs : AuthStep sha256Hex may s s') {id : String}
    {r : ApprovalRequest} (hold : s.store.table (.request id) = none)
    (hr : s'.store.requestAt id = some r) :
    ∃ operator agentID kind payload reason openRequests now,
      createApprovalRequest sha256Hex s.tables operator agentID kind payload
        reason openRequests now = some r := by
  rw [requestAt_eq_some] at hr
  cases hs with
  | receive | rollback | edit => cases hold.symm.trans hr
  | commit t hmay hcommits hunique =>
      rcases RowStore.written_eq_some hr with ⟨w, -, -, row, hrow, -⟩ | hrow
      · cases hold.symm.trans hrow
      · cases hold.symm.trans hrow
  | @activate id' operatorID agentID kind payload justification ttlSeconds
      openCount now operator o hoperator hfresh hcreated =>
      have hne : RecordKey.request id ≠ .override id' := nofun
      have hsame := Function.update_of_ne hne (some (AuthRecord.override o))
        s.store.table
      cases hold.symm.trans (hsame.symm.trans hr)
  | create id' operatorID agentID kind payload reason openRequests now
      hoperator hfresh hcreated =>
      by_cases hid : id = id'
      · change Function.update s.store.table _ _ _ = _ at hr
        rw [hid, Function.update_self] at hr
        obtain rfl := AuthRecord.request.inj (Option.some.inj hr)
        exact ⟨_, _, _, _, _, _, _, hcreated⟩
      · have hne : RecordKey.request id ≠ .request id' :=
          fun he => hid (RecordKey.request.inj he)
        change Function.update s.store.table _ _ _ = _ at hr
        rw [Function.update_of_ne hne] at hr
        cases hold.symm.trans hr

theorem bound_step (h : Backed sha256Hex s) (hs : AuthStep sha256Hex may s s')
    {id : String} {r : ApprovalRequest} (hr : s'.store.requestAt id = some r) :
    r.payloadSHA256 = bindingDigest sha256Hex r.agentID r.kind r.payload := by
  cases hold : s.store.table (.request id) with
  | some row =>
      obtain ⟨r₀, rfl, hr₀⟩ := h.orderly.requestRow hold
      obtain ⟨r', hr', hterms, -⟩ := request_step h.orderly hs hr₀
      obtain rfl := Option.some.inj (hr.symm.trans hr')
      obtain ⟨hagent, hkind, hpayload, hdigest, -⟩ := fields_of_terms hterms
      rw [hdigest, hagent, hkind, hpayload]
      exact h.bound id r₀ hr₀
  | none =>
      obtain ⟨_, _, _, _, _, _, _, hcreated⟩ := created_of_new hs hold hr
      rw [createApprovalRequest] at hcreated
      split at hcreated
      · cases hcreated
      · split at hcreated
        · obtain ⟨policy, -, rfl⟩ := Option.map_eq_some_iff.mp hcreated
          rfl
        · cases hcreated

theorem ready_step (h : Backed sha256Hex s)
    (hs : AuthStep sha256Hex anyCommit s s')
    {t : Nat} {c : DispatchedCommand} {id : String}
    (hc : AuthInsert.command c ∈ (s'.store.txns t).inserts)
    (hid : c.approvalRequestID = some id) :
    ∃ r decisions operator siteID,
      ReadyToSpend sha256Hex s' t c id r decisions operator siteID := by
  have hlater : s'.tables = s.tables →
      s'.store.txns t = s.store.txns t → ∃ r decisions operator siteID,
        ReadyToSpend sha256Hex s' t c id r decisions operator siteID := by
    intro htables htxn
    obtain ⟨r, decisions, operator, siteID, hready⟩ :=
      h.ready t c id (htxn ▸ hc) hid
    exact ⟨r, decisions, operator, siteID,
      hready.later h.orderly hs htables htxn⟩
  cases hs with
  | receive u request operatorID now hoperator hidle hreads =>
      by_cases ht : t = u
      · rw [ht, received_txn hidle] at hc
        obtain ⟨body, rfl⟩ := dispatch_of_command hc
        obtain ⟨r, siteID, hr, hsite, hsender, hwrites, hspendable⟩ :=
          citing_dispatch hc hid
        refine ⟨r, _, _, siteID, hsender, hsite, ?_, hspendable, ⟨r, hr, rfl⟩,
          List.Sublist.refl _⟩
        rw [ht, received_txn hidle]
        exact hwrites
      · exact hlater rfl (RowStore.setTxn_ne ht _)
  | commit u hmay hcommits hunique =>
      by_cases ht : t = u
      · rw [ht, RowStore.commit_self] at hc
        exact absurd hc List.not_mem_nil
      · exact hlater rfl (RowStore.commit_ne ht)
  | rollback u =>
      by_cases ht : t = u
      · rw [ht, RowStore.abort, RowStore.setTxn_self] at hc
        exact absurd hc List.not_mem_nil
      · exact hlater rfl (RowStore.setTxn_ne ht _)
  | create | activate => exact hlater rfl rfl
  | edit tables hmay => exact absurd ⟨c, hc⟩ (hmay t)

theorem rejected_commit (h : Orderly s) {t : Nat} {d : ApprovalDecision}
    (hd : AuthInsert.decision d ∈ (s.store.txns t).inserts)
    (hreject : d.decision = .reject) :
    Closed { s with store := s.store.commit t } d.requestID := by
  obtain ⟨w, hwrites, hkey, hcloses⟩ := (h.prepared t).rejects d hd hreject
  have hmem : w ∈ (s.store.txns t).writes := by
    rw [hwrites]
    exact List.mem_singleton_self _
  obtain ⟨row, hrow⟩ := h.present t w hmem
  have hfits := h.fits _ _ hrow
  have hedited : (s.store.commit t).table (.request d.requestID) =
      some (w.edit row) := by
    show RowStore.written _ _ _ = _
    rw [RowStore.written, hwrites, ← hkey, hrow]
    simp
  have hfits' := ((h.prepared t).modest w hmem).fits _ _ hfits
  have hdone := hcloses row hfits
  rw [hkey] at hfits'
  cases hnew : w.edit row with
  | override o =>
      rw [hnew] at hfits'
      exact hfits'.elim
  | request r =>
      rw [hnew] at hedited hdone
      exact ⟨r, requestAt_eq_some.mpr hedited, (Bool.not_eq_true' _).mp hdone⟩

/-- A spend that commits finds the approval unspent. -/
theorem once_commit (h : Backed sha256Hex s) {t : Nat}
    (hcommits : s.store.Commits t) (id : String) :
    (citing (s.store.commit t) id).length ≤ 1 := by
  show (citing ⟨_, s.store.inserted ++ _, _⟩ id).length ≤ 1
  rw [citing_append, List.length_append]
  have hold := h.once id
  have hnew : (citing ⟨RowStore.written (s.store.txns t).writes s.store.table,
      (s.store.txns t).inserts, Function.update s.store.txns t {}⟩ id).length ≤
        1 :=
    (List.length_filter_le _ _).trans
      ((List.length_filterMap_le _ _).trans (h.orderly.prepared t).single)
  by_contra hmore
  obtain ⟨c₀, hc₀⟩ := List.exists_mem_of_length_pos
    (show 0 < (citing s.store id).length by omega)
  obtain ⟨c, hc⟩ := List.exists_mem_of_length_pos
    (show 0 < (citing ⟨RowStore.written (s.store.txns t).writes s.store.table,
      (s.store.txns t).inserts, Function.update s.store.txns t {}⟩ id).length by
        omega)
  obtain ⟨hc, hid⟩ := mem_citing.mp hc
  obtain ⟨r₀, decisions, operator, siteID, hready⟩ := h.ready t c id hc hid
  obtain ⟨r, hr, hlive⟩ := h.spent id c₀ hc₀
  rw [guard_of_commits hcommits hready.writes hr] at hlive
  cases hlive

theorem nodup_of_length_le_one {α : Type} {as : List α} (h : as.length ≤ 1) :
    as.Nodup := by
  match as with
  | [] => exact List.nodup_nil
  | [a] => exact List.nodup_singleton a
  | _ :: _ :: _ => simp at h

theorem eq_singleton_of_mem {α : Type} {a : α} {as : List α} (ha : a ∈ as)
    (h : as.length ≤ 1) : as = [a] := by
  match as with
  | [b] => rw [List.mem_singleton.mp ha]
  | [] => exact absurd ha List.not_mem_nil
  | _ :: _ :: _ => simp at h

theorem votes_commit (h : Backed sha256Hex s) {t : Nat}
    (hunique : s.UniqueDecisions t) (id : String) :
    ((AuthStore.decisionsOf (s.store.commit t) id).map (·.operatorID)).Nodup := by
  show ((AuthStore.decisionsOf ⟨_, s.store.inserted ++ _, _⟩ id).map _).Nodup
  rw [decisionsOf_append, List.map_append, List.nodup_append]
  refine ⟨h.votes id, ?_, ?_⟩
  · refine nodup_of_length_le_one ?_
    rw [List.length_map]
    exact (List.length_filterMap_le _ _).trans (h.orderly.prepared t).single
  · intro operatorID hold operatorID' hnew hsame
    obtain ⟨d, hd, rfl⟩ := List.mem_map.mp hold
    obtain ⟨e, he, rfl⟩ := List.mem_map.mp hnew
    obtain ⟨hd, hdid⟩ := mem_decisionsOf.mp hd
    obtain ⟨he, heid⟩ := mem_decisionsOf.mp he
    exact hunique e he d hd (Prod.ext (heid.trans hdid.symm) hsame.symm)

theorem backed_step (h : Backed sha256Hex s)
    (hs : AuthStep sha256Hex anyCommit s s') : Backed sha256Hex s' := by
  have horderly := orderly_step h.orderly hs
  have hbound := fun id r => @bound_step sha256Hex anyCommit s s' h hs id r
  have hready := fun t c id => @ready_step sha256Hex s s' h hs t c id
  have hclosed := fun id => @closed_step sha256Hex anyCommit s s' h.orderly hs id
  rcases inserted_step hs with hsame | ⟨t, hcommits, hunique, rfl⟩
  · refine ⟨horderly, hbound, ?_, ?_, ?_, ?_, hready⟩
    · intro id c hc
      rw [citing, AuthStore.commands, hsame] at hc
      exact hclosed id (h.spent id c hc)
    · intro id d hd hreject
      rw [AuthStore.decisionsOf, hsame] at hd
      exact hclosed id (h.rejected id d hd hreject)
    · intro id
      rw [citing, AuthStore.commands, hsame]
      exact h.once id
    · intro id
      rw [AuthStore.decisionsOf, hsame]
      exact h.votes id
  · have hcommits' := (h.orderly.prepared t)
    refine ⟨horderly, hbound, ?_, ?_, ?_, ?_, hready⟩
    · intro id c hc
      obtain ⟨hmem, hid⟩ := mem_citing.mp hc
      rcases List.mem_append.mp hmem with hold | hnew
      · exact hclosed id (h.spent id c (mem_citing.mpr ⟨hold, hid⟩))
      · obtain ⟨r, hr, hstatus⟩ := (spent_commit h.orderly hnew).1 id hid
        refine ⟨r, requestAt_eq_some.mpr hr, ?_⟩
        rw [hstatus]
        rfl
    · intro id d hd hreject
      obtain ⟨hmem, rfl⟩ := mem_decisionsOf.mp hd
      rcases List.mem_append.mp hmem with hold | hnew
      · exact hclosed _ (h.rejected _ d (mem_decisionsOf.mpr ⟨hold, rfl⟩) hreject)
      · exact rejected_commit h.orderly hnew hreject
    · intro id
      exact once_commit h hcommits id
    · intro id
      exact votes_commit h hunique id

end Steps

/-! ## Whole runs -/

/-- No digest is shared by a request and a command that were hashed from
different bytes. -/
def NoBindingCollision (sha256Hex : Bytes → String) (s : AuthState) : Prop :=
  ∀ id r, s.store.requestAt id = some r → ∀ c ∈ s.store.commands,
    bindingDigest sha256Hex r.agentID r.kind r.payload =
        bindingDigest sha256Hex c.agentID c.kind c.submitted →
      utf8 (dumpsSorted (bindingDocument r.agentID r.kind r.payload)) =
        utf8 (dumpsSorted (bindingDocument c.agentID c.kind c.submitted))

theorem sameValue_of_document {agentID agentID' : String}
    {kind kind' : CommandKind} {payload payload' : StoredJson}
    (h : utf8 (dumpsSorted (bindingDocument agentID kind payload)) =
      utf8 (dumpsSorted (bindingDocument agentID' kind' payload'))) :
    SameValue payload payload' := by
  have hsame : SameValue (bindingDocument agentID kind payload)
      (bindingDocument agentID' kind' payload') :=
    dumpsSorted_eq_iff.mp (utf8_injective h)
  obtain ⟨w, hw, hvalue⟩ := hsame.member (k := "payload") (v := payload)
    (by simp)
  simp only [List.mem_cons, Prod.mk.injEq, List.not_mem_nil, or_false] at hw
  rcases hw with ⟨hk, -⟩ | ⟨hk, -⟩ | ⟨hk, -⟩ | ⟨-, rfl⟩
  · exact absurd hk (by decide)
  · exact absurd hk (by decide)
  · exact absurd hk (by decide)
  · exact hvalue

/-- The step that created a command, and what stood just before it. -/
structure Created (sha256Hex : Bytes → String) (s₀ s : AuthState)
    (c : DispatchedCommand) (id : String) (s₁ s₂ : AuthState)
    (r : ApprovalRequest) (siteID : String) : Prop where
  before : AuthRun sha256Hex anyCommit s₀ s₁
  step : AuthStep sha256Hex anyCommit s₁ s₂
  after : AuthRun sha256Hex anyCommit s₂ s
  inserted : s₂.store.inserted = s₁.store.inserted ++ [.command c]
  granted : Granted sha256Hex s₁ c id r siteID

section Runs

variable {sha256Hex : Bytes → String} {s₀ s s' : AuthState}

theorem backed_run (hstart : AuthStart s₀)
    (hrun : AuthRun sha256Hex anyCommit s₀ s) : Backed sha256Hex s :=
  invariant_of_steps (I := Backed sha256Hex)
    (fun _ _ hi hs => backed_step hi hs) (backed_start hstart) hrun

/-- A request keeps its terms over a run. -/
theorem request_run (h : Orderly s) (hrun : AuthRun sha256Hex anyCommit s s')
    {id : String} {r : ApprovalRequest} (hr : s.store.requestAt id = some r) :
    ∃ r', s'.store.requestAt id = some r' ∧
      requestTerms r' = requestTerms r := by
  have hboth : Orderly s' ∧ ∃ r', s'.store.requestAt id = some r' ∧
      requestTerms r' = requestTerms r :=
    invariant_of_steps (I := fun u => Orderly u ∧
        ∃ r', u.store.requestAt id = some r' ∧ requestTerms r' = requestTerms r)
      (fun u u' hi hs => by
        obtain ⟨horderly, r', hr', hterms⟩ := hi
        obtain ⟨r'', hr'', hterms', -⟩ := request_step horderly hs hr'
        exact ⟨orderly_step horderly hs, r'', hr'', hterms'.trans hterms⟩)
      ⟨h, r, hr, rfl⟩ hrun
  exact hboth.2

theorem created_run (hstart : AuthStart s₀)
    (hrun : AuthRun sha256Hex anyCommit s₀ s) {c : DispatchedCommand}
    {id : String} (hc : AuthInsert.command c ∈ s.store.inserted)
    (hid : c.approvalRequestID = some id) :
    ∃ s₁ s₂ r siteID, Created sha256Hex s₀ s c id s₁ s₂ r siteID := by
  induction hrun with
  | refl =>
      rw [hstart.unrecorded] at hc
      exact absurd hc List.not_mem_nil
  | @tail s s' hrun hs ih =>
      by_cases hold : AuthInsert.command c ∈ s.store.inserted
      · obtain ⟨s₁, s₂, r, siteID, hcreated⟩ := ih hold
        exact ⟨s₁, s₂, r, siteID, hcreated.before, hcreated.step,
          hcreated.after.tail hs, hcreated.inserted, hcreated.granted⟩
      · have hbacked := backed_run hstart hrun
        rcases inserted_step hs with hsame | ⟨t, hcommits, -, rfl⟩
        · exact absurd (hsame ▸ hc) hold
        · rcases List.mem_append.mp hc with hin | hnew
          · exact absurd hin hold
          · obtain ⟨r, siteID, hgranted⟩ := hbacked.granted hcommits hnew hid
            refine ⟨s, _, r, siteID, hrun, hs, Relation.ReflTransGen.refl, ?_,
              hgranted⟩
            have hone : (s.store.txns t).inserts = [.command c] :=
              eq_singleton_of_mem hnew (hbacked.orderly.prepared t).single
            show s.store.inserted ++ (s.store.txns t).inserts = _
            rw [hone]

end Runs

/-- Every command that cites an approval was created, in one step of the run,
under a request that was approved for exactly that command by enough other
people who were eligible at that moment and was rejected by none; and it is
the only command that cites it. -/
theorem approved_commands_authorized {sha256Hex : Bytes → String}
    {s₀ s : AuthState} (hstart : AuthStart s₀)
    (hrun : AuthRun sha256Hex anyCommit s₀ s)
    (hsha : NoBindingCollision sha256Hex s) {c : DispatchedCommand}
    {id : String} (hc : AuthInsert.command c ∈ s.store.inserted)
    (hid : c.approvalRequestID = some id) :
    (∃ s₁ s₂ r siteID, Created sha256Hex s₀ s c id s₁ s₂ r siteID ∧
      SameValue r.payload c.submitted) ∧
    citing s.store id = [c] := by
  obtain ⟨s₁, s₂, r, siteID, hcreated⟩ := created_run hstart hrun hc hid
  refine ⟨⟨s₁, s₂, r, siteID, hcreated, ?_⟩,
    eq_singleton_of_mem (mem_citing.mpr ⟨hc, hid⟩)
      ((backed_run hstart hrun).once id)⟩
  obtain ⟨r', hr', hterms⟩ := request_run (backed_run hstart hcreated.before).orderly
    (hcreated.after.head hcreated.step) hcreated.granted.row
  obtain ⟨hagent, hkind, hpayload, -⟩ := fields_of_terms hterms
  have hdigest := hcreated.granted.sameDigest
  rw [← hagent, ← hkind, ← hpayload] at hdigest
  rw [← hpayload]
  exact sameValue_of_document (hsha id r' hr' c (mem_commands.mpr hc) hdigest)

/-! ## One request, one approval, one dispatch -/

/-- The hash of the one document that the run hashes. -/
def inventorySHA256 : Bytes → String := fun _ =>
  "b3b7c593118e907ed6d269f8d43a91a916dc1086738bfef65ba82f2aa285a298"

def blankState : AuthState where
  tables := smallTables
  store := { table := fun _ => none, inserted := [], txns := fun _ => {} }

def askedRequest : ApprovalRequest :=
  { approvedRequest with
    payloadSHA256 :=
      "b3b7c593118e907ed6d269f8d43a91a916dc1086738bfef65ba82f2aa285a298"
    status := .pending
    decidedAt := none }

def askedState : AuthState :=
  { blankState with
    store := blankState.store.create (.request "request-1")
      (.request askedRequest) }

def approveTxn : AuthTxn where
  held := [.request "request-1"]
  writes := [updateRequest "request-1" askedRequest (·.approve 5)]
  inserts := [.decision approval]

def approvingState : AuthState :=
  { askedState with store := askedState.store.read 1 approveTxn }

def agreedState : AuthState :=
  { approvingState with store := approvingState.store.commit 1 }

def agreedTxn : AuthTxn where
  writes := [spendApproval "request-1" (askedRequest.approve 5) 10]
  inserts := [.command (dispatchedCommand requester inventoryDispatch 10)]

def spendingState : AuthState :=
  { agreedState with store := agreedState.store.read 2 agreedTxn }

def dispatchedState : AuthState :=
  { spendingState with store := spendingState.store.commit 2 }

theorem asked_step : AuthStep inventorySHA256 anyCommit blankState askedState :=
  @AuthStep.create _ _ blankState "request-1" "op-1" "agent-1" .collectInventory
    (.obj []) "quarterly inventory" 0 0 requester askedRequest rfl rfl rfl

theorem approving_step :
    AuthStep inventorySHA256 anyCommit askedState approvingState := by
  refine @AuthStep.receive _ _ askedState 1
    (.decide .approve "request-1" "looks right to me") "op-2" 5 reviewer rfl rfl
    ⟨?_, ?_, ?_⟩
  · intro w hw
    obtain rfl : w = updateRequest "request-1" askedRequest (·.approve 5) :=
      List.mem_singleton.mp hw
    rfl
  · intro k _ ⟨u, _, hk⟩
    exact absurd hk List.not_mem_nil
  · intro w hw
    exact absurd hw List.not_mem_nil

theorem agreed_step :
    AuthStep inventorySHA256 anyCommit approvingState agreedState := by
  refine AuthStep.commit 1 trivial ⟨?_, ?_⟩ ?_
  · intro w _ ⟨u, hu, hk⟩
    have hidle : approvingState.store.txns u = {} := RowStore.setTxn_ne hu _
    rw [hidle] at hk
    exact absurd hk List.not_mem_nil
  · intro w hw row _
    cases List.mem_singleton.mp hw
    rfl
  · intro d hd e he
    exact absurd he List.not_mem_nil

theorem spending_step :
    AuthStep inventorySHA256 anyCommit agreedState spendingState :=
  @AuthStep.receive _ _ agreedState 2 (.dispatch inventoryDispatch) "op-1" 10
    requester rfl rfl (@reads_one _ 2 agreedTxn _ rfl rfl rfl rfl)

theorem dispatched_step :
    AuthStep inventorySHA256 anyCommit spendingState dispatchedState := by
  refine AuthStep.commit 2 trivial ⟨?_, ?_⟩ ?_
  · intro w _ ⟨u, hu, hk⟩
    have hsame : spendingState.store.txns u = agreedState.store.txns u :=
      RowStore.setTxn_ne hu _
    have hnone : (agreedState.store.txns u).held = [] := by
      by_cases hone : u = 1
      · rw [hone]
        rfl
      · have hidle : agreedState.store.txns u = approvingState.store.txns u :=
          RowStore.commit_ne hone
        rw [hidle, approvingState, RowStore.read, RowStore.setTxn_ne hone]
        rfl
    rw [hsame, hnone] at hk
    exact absurd hk List.not_mem_nil
  · intro w hw row hrow
    cases List.mem_singleton.mp hw
    cases hrow
    rfl
  · intro d hd
    cases List.mem_singleton.mp hd

theorem dispatched_run :
    AuthRun inventorySHA256 anyCommit blankState dispatchedState :=
  ((((Relation.ReflTransGen.single asked_step).tail approving_step).tail
    agreed_step).tail spending_step).tail dispatched_step

theorem blankState_start : AuthStart blankState :=
  ⟨fun _ => rfl, rfl, fun _ => rfl⟩

theorem dispatched_noCollision :
    NoBindingCollision inventorySHA256 dispatchedState := by
  intro id r hr c hc _
  obtain rfl : c = dispatchedCommand requester inventoryDispatch 10 :=
    List.mem_singleton.mp hc
  by_cases hid : id = "request-1"
  · rw [hid] at hr
    cases hr
    rfl
  · have hne : RecordKey.request "request-1" ≠ .request id :=
      fun he => hid (RecordKey.request.inj he).symm
    have hnone : dispatchedState.store.table (.request id) = none := by
      show RowStore.written [spendApproval "request-1" (askedRequest.approve 5) 10]
        (RowStore.written [updateRequest "request-1" askedRequest (·.approve 5)]
          askedState.store.table) (.request id) = none
      rw [RowStore.written_of_not_mem, RowStore.written_of_not_mem]
      · exact Function.update_of_ne hne.symm ..
      · intro w hw
        rw [List.mem_singleton.mp hw]
        exact hne
      · intro w hw
        rw [List.mem_singleton.mp hw]
        exact hne
    rw [requestAt_eq_some, hnone] at hr
    cases hr

/-- The dispatch of an approved inventory. -/
theorem approved_commands_authorized_inventory :
    (∃ s₁ s₂ r siteID, Created inventorySHA256 blankState dispatchedState
        (dispatchedCommand requester inventoryDispatch 10) "request-1" s₁ s₂ r
        siteID ∧
      SameValue r.payload inventoryDispatch.payload) ∧
    citing dispatchedState.store "request-1" =
      [dispatchedCommand requester inventoryDispatch 10] :=
  approved_commands_authorized blankState_start dispatched_run
    dispatched_noCollision
    (List.mem_append_right _ (List.mem_singleton_self _)) rfl

end NodeLink.Proofs
