import NodeLink.Server.AuthorizationRuns

/-!
# What the handlers of authorization records write

Every write starts from a record that was live when it was read, and leaves
its terms alone. All but one close the record; the one that approves holds the
row it read. A command that cites a record comes with the write that spends
it.
-/

namespace NodeLink.Proofs

open Lib Server

/-! ## Terms -/

/-- The request without the columns a handler writes. -/
def requestTerms (r : ApprovalRequest) : ApprovalRequest :=
  { r with
    status := .pending
    decidedAt := none
    consumedAt := none
    closedAt := none
    closedByEmail := none
    closedReason := none }

def overrideTerms (o : EmergencyOverride) : EmergencyOverride :=
  { o with
    status := .active
    consumedAt := none
    revokedAt := none
    revokedByEmail := none
    revokeReason := none }

def recordTerms : AuthRecord → AuthRecord
  | .request r => .request (requestTerms r)
  | .override o => .override (overrideTerms o)

/-- The record is of the table its key is of. -/
def Fits : RecordKey → AuthRecord → Prop
  | .request _, .request _ => True
  | .override _, .override _ => True
  | _, _ => False

/-- The write closes the record. -/
def Closing (w : AuthWrite) : Prop :=
  ∀ row, Fits w.key row → (w.edit row).status.terminal = true

/-- The write starts from a live record and keeps its terms. -/
structure Modest (w : AuthWrite) : Prop where
  live : w.read.status.terminal = false
  terms : ∀ row, recordTerms (w.edit row) = recordTerms row
  fits : ∀ k row, Fits k row → Fits k (w.edit row)

theorem terms_editRequest {f : ApprovalRequest → ApprovalRequest}
    (hf : ∀ r, requestTerms (f r) = requestTerms r) (row : AuthRecord) :
    recordTerms (row.editRequest f) = recordTerms row := by
  cases row with
  | request r => exact congrArg AuthRecord.request (hf r)
  | override o => rfl

theorem terms_editOverride {f : EmergencyOverride → EmergencyOverride}
    (hf : ∀ o, overrideTerms (f o) = overrideTerms o) (row : AuthRecord) :
    recordTerms (row.editOverride f) = recordTerms row := by
  cases row with
  | request r => rfl
  | override o => exact congrArg AuthRecord.override (hf o)

theorem fits_editRequest {f : ApprovalRequest → ApprovalRequest}
    (k : RecordKey) (row : AuthRecord) (h : Fits k row) :
    Fits k (row.editRequest f) := by
  cases row with
  | request r => cases k <;> exact h
  | override o => exact h

theorem fits_editOverride {f : EmergencyOverride → EmergencyOverride}
    (k : RecordKey) (row : AuthRecord) (h : Fits k row) :
    Fits k (row.editOverride f) := by
  cases row with
  | request r => exact h
  | override o => cases k <;> exact h

theorem modest_updateRequest {id : String} {r : ApprovalRequest}
    {f : ApprovalRequest → ApprovalRequest} (hlive : r.status.live = true)
    (hf : ∀ r, requestTerms (f r) = requestTerms r) :
    Modest (updateRequest id r f) := by
  refine ⟨?_, terms_editRequest hf, fits_editRequest⟩
  show (!r.status.live) = false
  rw [hlive]
  rfl

theorem modest_updateOverride {id : String} {o : EmergencyOverride}
    {f : EmergencyOverride → EmergencyOverride} (hlive : o.status = .active)
    (hf : ∀ o, overrideTerms (f o) = overrideTerms o) :
    Modest (updateOverride id o f) := by
  refine ⟨?_, terms_editOverride hf, fits_editOverride⟩
  show decide (o.status ≠ .active) = false
  rw [hlive]
  rfl

theorem closing_updateRequest {id : String} {r : ApprovalRequest}
    {f : ApprovalRequest → ApprovalRequest}
    (hf : ∀ r, (f r).status.live = false) : Closing (updateRequest id r f) := by
  intro row hfits
  cases row with
  | request r' =>
      show (!(f r').status.live) = true
      rw [hf]
      rfl
  | override o => exact hfits.elim

theorem closing_updateOverride {id : String} {o : EmergencyOverride}
    {f : EmergencyOverride → EmergencyOverride}
    (hf : ∀ o, (f o).status ≠ .active) : Closing (updateOverride id o f) := by
  intro row hfits
  cases row with
  | request r => exact hfits.elim
  | override o' => exact decide_eq_true (hf o')

/-! ## Transactions -/

/-- What every transaction of a handler is like. -/
structure Prepared (txn : AuthTxn) : Prop where
  modest : ∀ w ∈ txn.writes, Modest w
  closes : ∀ w ∈ txn.writes, Closing w ∨
    (w.key ∈ txn.held ∧ w.read.status = .request .pending)
  spends : ∀ c, AuthInsert.command c ∈ txn.inserts →
    ∀ id, c.approvalRequestID = some id →
      ∃ r, txn.writes = [spendApproval id r c.createdAt]
  spendsOverride : ∀ c, AuthInsert.command c ∈ txn.inserts →
    ∀ id, c.emergencyOverrideID = some id →
      ∃ o, txn.writes = [spendEmergencyOverride id o c.createdAt]
  rejects : ∀ d, AuthInsert.decision d ∈ txn.inserts →
    d.decision = .reject →
      ∃ w, txn.writes = [w] ∧ w.key = .request d.requestID ∧ Closing w
  single : txn.inserts.length ≤ 1

theorem prepared_writes {held : List RecordKey} {writes : List AuthWrite}
    (h : ∀ w ∈ writes, Modest w ∧ Closing w) :
    Prepared { held := held, writes := writes } where
  modest := fun w hw => (h w hw).1
  closes := fun w hw => .inl (h w hw).2
  spends := fun _ hc => absurd hc List.not_mem_nil
  spendsOverride := fun _ hc => absurd hc List.not_mem_nil
  rejects := fun _ hd => absurd hd List.not_mem_nil
  single := Nat.zero_le 1

theorem prepared_empty : Prepared ({} : AuthTxn) :=
  prepared_writes fun _ hw => absurd hw List.not_mem_nil

theorem prepared_one {held : List RecordKey} {w : AuthWrite}
    (h : Modest w ∧ Closing w) :
    Prepared { held := held, writes := [w] } :=
  prepared_writes fun _ hw => List.mem_singleton.mp hw ▸ h

theorem expires_request {id : String} {r : ApprovalRequest} {now : Int}
    (h : r.due now = true) :
    Modest (updateRequest id r (·.expire now)) ∧
      Closing (updateRequest id r (·.expire now)) := by
  rw [ApprovalRequest.due, Bool.and_eq_true] at h
  exact ⟨modest_updateRequest h.1 fun _ => rfl,
    closing_updateRequest fun _ => rfl⟩

theorem expires_override {id : String} {o : EmergencyOverride} {now : Int}
    (h : o.due now = true) :
    Modest (updateOverride id o (·.expire)) ∧
      Closing (updateOverride id o (·.expire)) := by
  rw [EmergencyOverride.due, Bool.and_eq_true] at h
  exact ⟨modest_updateOverride (of_decide_eq_true h.1) fun _ => rfl,
    closing_updateOverride fun _ => nofun⟩

section Handlers

variable {tables : ApprovalTables} {store : AuthStore}

theorem prepared_get {operator : Operator} {id : String} {now : Int} :
    Prepared (getApprovalRequest tables store operator id now) := by
  rw [getApprovalRequest]
  split
  · exact prepared_empty
  · split
    · next hdue => exact prepared_one (expires_request hdue)
    · exact prepared_empty

theorem prepared_list {operator : Operator} {ids : List String} {now : Int} :
    Prepared (listApprovalRequests tables store operator ids now) := by
  refine prepared_writes fun w hw => ?_
  obtain ⟨id, -, hid⟩ := List.mem_filterMap.mp hw
  obtain ⟨r, hr, rfl⟩ := Option.map_eq_some_iff.mp hid
  exact expires_request (Option.filter_eq_some_iff.mp hr).2

theorem prepared_cancel {operator : Operator} {id reason : String}
    {now : Int} :
    Prepared (cancelRequest tables store operator id reason now) := by
  rw [cancelRequest]
  split
  · exact prepared_empty
  · split
    · next hdue => exact prepared_one (expires_request hdue)
    · split
      · exact prepared_empty
      · split
        · next hlive =>
            exact prepared_one ⟨modest_updateRequest hlive fun _ => rfl,
              closing_updateRequest fun _ => rfl⟩
        · exact prepared_empty

theorem pending_of_not_refused {r : ApprovalRequest}
    {decisions : List ApprovalDecision} {operator : Operator} {now : Int}
    (h : ¬ (decisionRefusal r decisions operator now).isSome) :
    r.status = .pending := by
  rw [decisionRefusal] at h
  split at h
  · exact absurd rfl h
  · split at h
    · exact absurd rfl h
    · next hlive =>
        split at h
        · exact absurd rfl h
        · next happroved =>
            cases hs : r.status with
            | pending => rfl
            | approved => exact absurd hs happroved
            | rejected | cancelled | expired | consumed =>
                rw [hs] at hlive
                exact absurd Bool.false_ne_true hlive

theorem prepared_decide {verdict : ApprovalDecisionKind} {operator : Operator}
    {id reason : String} {now : Int} :
    Prepared (recordDecision tables store verdict operator id reason now) := by
  rw [recordDecision]
  split
  · exact prepared_empty
  · next r hr =>
      split
      · next hdue => exact prepared_one (expires_request hdue)
      · split
        · exact prepared_empty
        · split
          · exact prepared_empty
          · next hrefusal =>
              have hpending := pending_of_not_refused hrefusal
              have hlive : r.status.live = true := by rw [hpending]; rfl
              split
              · refine ⟨?_, ?_, ?_, ?_, ?_, Nat.le_refl 1⟩
                · intro w hw
                  cases verdict with
                  | reject =>
                      obtain rfl := List.mem_singleton.mp hw
                      exact modest_updateRequest hlive fun _ => rfl
                  | approve =>
                      simp only [verdictWrites] at hw
                      split at hw
                      · obtain rfl := List.mem_singleton.mp hw
                        exact modest_updateRequest hlive fun _ => rfl
                      · exact absurd hw List.not_mem_nil
                · intro w hw
                  cases verdict with
                  | reject =>
                      obtain rfl := List.mem_singleton.mp hw
                      exact .inl (closing_updateRequest fun _ => rfl)
                  | approve =>
                      simp only [verdictWrites] at hw
                      split at hw
                      · obtain rfl := List.mem_singleton.mp hw
                        exact .inr ⟨List.mem_singleton_self _,
                          congrArg RecordStatus.request hpending⟩
                      · exact absurd hw List.not_mem_nil
                · intro c hc
                  cases List.mem_singleton.mp hc
                · intro c hc
                  cases List.mem_singleton.mp hc
                · intro d hd hreject
                  cases List.mem_singleton.mp hd
                  obtain rfl : verdict = .reject := hreject
                  exact ⟨_, rfl, rfl, closing_updateRequest fun _ => rfl⟩
              · exact prepared_empty

theorem prepared_getOverride {operator : Operator} {id : String} {now : Int} :
    Prepared (getEmergencyOverride tables store operator id now) := by
  rw [getEmergencyOverride]
  split
  · exact prepared_empty
  · split
    · next hdue => exact prepared_one (expires_override hdue)
    · exact prepared_empty

theorem prepared_listOverrides {operator : Operator} {ids : List String}
    {now : Int} :
    Prepared (listEmergencyOverrides tables store operator ids now) := by
  refine prepared_writes fun w hw => ?_
  obtain ⟨id, -, hid⟩ := List.mem_filterMap.mp hw
  obtain ⟨o, ho, rfl⟩ := Option.map_eq_some_iff.mp hid
  exact expires_override (Option.filter_eq_some_iff.mp ho).2

theorem prepared_revoke {operator : Operator} {id reason : String}
    {now : Int} :
    Prepared (revokeEmergencyOverride tables store operator id reason now) := by
  rw [revokeEmergencyOverride]
  split
  · exact prepared_empty
  · split
    · next hdue => exact prepared_one (expires_override hdue)
    · split
      · exact prepared_empty
      · split
        · next hactive =>
            exact prepared_one ⟨modest_updateOverride hactive fun _ => rfl,
              closing_updateOverride fun _ => nofun⟩
        · exact prepared_empty

/-! ## Dispatch -/

/-- What an approval that may be spent is known to be. -/
structure Spendable (sha256Hex : Bytes → String) (auth : Authority)
    (r : ApprovalRequest) (decisions : List ApprovalDecision)
    (operator : Operator) (agent : AgentPlace) (kind : CommandKind)
    (payload : StoredJson) (now : Int) : Prop where
  sameAgent : r.agentID = agent.id
  sameKind : r.kind = kind
  samePayload : r.payloadSHA256 = bindingDigest sha256Hex agent.id kind payload
  requester : r.requestedByOperatorID = some operator.id
  unexpired : now < r.expiresAt
  approved : r.status = .approved
  enough : r.requiredApprovals ≤
    (stillEligible auth r decisions agent kind).length

theorem spendable_of_allowed {sha256Hex : Bytes → String} {auth : Authority}
    {r : ApprovalRequest} {decisions : List ApprovalDecision}
    {operator : Operator} {agent : AgentPlace} {kind : CommandKind}
    {payload : StoredJson} {now : Int}
    (h : (consumptionRefusal sha256Hex auth r decisions operator agent kind
      payload now).allowed = true) :
    Spendable sha256Hex auth r decisions operator agent kind payload now := by
  rw [consumptionRefusal] at h
  split at h
  · cases h
  · next hagent =>
      split at h
      · cases h
      · next hkind =>
          split at h
          · cases h
          · next hpayload =>
              split at h
              · cases h
              · next hrequester =>
                  split at h
                  · cases h
                  · next hexpired =>
                      split at h
                      · cases h
                      · split at h
                        · cases h
                        · next happroved =>
                            split at h
                            · cases h
                            · next henough =>
                                exact ⟨not_not.mp hagent, not_not.mp hkind,
                                  not_not.mp hpayload, not_not.mp hrequester,
                                  not_le.mp fun hle => hexpired (.inr hle),
                                  not_not.mp happroved, not_lt.mp henough⟩

theorem active_of_allowed {sha256Hex : Bytes → String} {auth : Authority}
    {o : EmergencyOverride} {operator : Operator} {agent : AgentPlace}
    {kind : CommandKind} {payload : StoredJson}
    {policy : Option ApprovalPolicy} {now : Int}
    (h : (overrideRefusal sha256Hex auth o operator agent kind payload policy
      now).allowed = true) : o.status = .active := by
  rw [overrideRefusal] at h
  by_contra hactive
  split at h
  · cases h
  · split at h
    · cases h
    · split at h
      · cases h
      · split at h
        · cases h
        · split at h
          · cases h
          · split at h
            · cases h
            · split at h
              · cases h
              · cases h

theorem prepared_approved {sha256Hex : Bytes → String} {operator : Operator}
    {agent : AgentPlace} {body : DispatchRequest} {id : String} {now : Int}
    (hid : body.approvalRequestID = some id)
    (hnone : body.emergencyOverrideID = none) :
    Prepared (dispatchApproved tables store sha256Hex operator agent body id
      now) := by
  rw [dispatchApproved]
  split
  · exact prepared_empty
  · next r hr =>
      split
      · exact prepared_empty
      · split
        · next hdue => exact prepared_one (expires_request hdue)
        · split
          · next hallowed =>
              have hstatus := (spendable_of_allowed hallowed).approved
              have hlive : r.status.live = true := by rw [hstatus]; rfl
              have hmodest : Modest (spendApproval id r now) := by
                obtain ⟨hread, hterms, hfits⟩ := @modest_updateRequest id r
                  (·.consume now) hlive fun _ => rfl
                exact ⟨hread, hterms, hfits⟩
              refine ⟨?_, ?_, ?_, ?_, ?_, Nat.le_refl 1⟩
              · intro w hw
                exact List.mem_singleton.mp hw ▸ hmodest
              · intro w hw
                obtain rfl := List.mem_singleton.mp hw
                exact .inl (@closing_updateRequest id r (·.consume now)
                  fun _ => rfl)
              · intro c hc id' hid'
                cases List.mem_singleton.mp hc
                obtain rfl := Option.some.inj (hid.symm.trans hid')
                exact ⟨r, rfl⟩
              · intro c hc id' hid'
                cases List.mem_singleton.mp hc
                cases hnone.symm.trans hid'
              · intro d hd
                cases List.mem_singleton.mp hd
          · exact prepared_empty

theorem prepared_overridden {sha256Hex : Bytes → String} {operator : Operator}
    {agent : AgentPlace} {body : DispatchRequest} {id : String} {now : Int}
    (hid : body.emergencyOverrideID = some id)
    (hnone : body.approvalRequestID = none) :
    Prepared (dispatchOverridden tables store sha256Hex operator agent body id
      now) := by
  rw [dispatchOverridden]
  split
  · exact prepared_empty
  · next o ho =>
      split
      · exact prepared_empty
      · split
        · next hdue => exact prepared_one (expires_override hdue)
        · split
          · next hallowed =>
              have hmodest : Modest (spendEmergencyOverride id o now) := by
                obtain ⟨hread, hterms, hfits⟩ := @modest_updateOverride id o
                  (·.consume now) (active_of_allowed hallowed) fun _ => rfl
                exact ⟨hread, hterms, hfits⟩
              refine ⟨?_, ?_, ?_, ?_, ?_, Nat.le_refl 1⟩
              · intro w hw
                exact List.mem_singleton.mp hw ▸ hmodest
              · intro w hw
                obtain rfl := List.mem_singleton.mp hw
                exact .inl (@closing_updateOverride id o (·.consume now)
                  fun _ => nofun)
              · intro c hc id' hid'
                cases List.mem_singleton.mp hc
                cases hnone.symm.trans hid'
              · intro c hc id' hid'
                cases List.mem_singleton.mp hc
                obtain rfl := Option.some.inj (hid.symm.trans hid')
                exact ⟨o, rfl⟩
              · intro d hd
                cases List.mem_singleton.mp hd
          · exact prepared_empty

theorem prepared_ungoverned {operator : Operator} {body : DispatchRequest}
    {now : Int} (happroval : body.approvalRequestID = none)
    (hoverride : body.emergencyOverrideID = none) :
    Prepared { inserts := [.command (dispatchedCommand operator body now)] } := by
  refine ⟨?_, ?_, ?_, ?_, ?_, Nat.le_refl 1⟩
  · exact fun w hw => absurd hw List.not_mem_nil
  · exact fun w hw => absurd hw List.not_mem_nil
  · intro c hc id hid
    cases List.mem_singleton.mp hc
    cases happroval.symm.trans hid
  · intro c hc id hid
    cases List.mem_singleton.mp hc
    cases hoverride.symm.trans hid
  · intro d hd
    cases List.mem_singleton.mp hd

theorem prepared_dispatch {sha256Hex : Bytes → String} {operator : Operator}
    {body : DispatchRequest} {now : Int} :
    Prepared (dispatchCommand tables store sha256Hex operator body now) := by
  rw [dispatchCommand]
  split
  · exact prepared_empty
  · split
    · exact prepared_empty
    · split
      · exact prepared_empty
      · split
        · rw [gateDispatch]
          split
          · next h₁ h₂ => exact prepared_ungoverned h₁ h₂
          · exact prepared_empty
          · exact prepared_empty
          · next h₁ h₂ => exact prepared_overridden h₂ h₁
          · next h₁ h₂ => exact prepared_approved h₁ h₂
          · exact prepared_empty
        · exact prepared_empty

end Handlers

theorem prepared_txn {sha256Hex : Bytes → String} {tables : ApprovalTables}
    {store : AuthStore} {operator : Operator} {now : Int}
    (request : AuthRequest) :
    Prepared (request.txn sha256Hex tables store operator now) := by
  cases request with
  | get id => exact prepared_get
  | list ids => exact prepared_list
  | cancel id reason => exact prepared_cancel
  | decide verdict id reason => exact prepared_decide
  | getOverride id => exact prepared_getOverride
  | listOverrides ids => exact prepared_listOverrides
  | revoke id reason => exact prepared_revoke
  | dispatch body => exact prepared_dispatch

end NodeLink.Proofs
