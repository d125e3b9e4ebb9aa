import NodeLink.Lib.Prog
import NodeLink.Proofs.AuthorizationWrites

/-!
# Closed records under concurrent requests

A commit changes the status of a live record only, as long as every write that
is neither held nor guarded finds the status its handler read, or the one it
is about to write. In such a run a record that is closed keeps its status, and
one that was spent on a command is consumed for good, whenever operators and
policies are edited. Without that, a cancellation that was read before the
spend and commits after it makes a spent approval read as cancelled.
-/

namespace NodeLink.Proofs

open Lib Server

/-- Every write that is not held finds the status that was read, or leaves the
status as it stands. -/
def InStep (s : AuthState) (t : Nat) : Prop :=
  ∀ w ∈ (s.store.txns t).writes, w.key ∉ (s.store.txns t).held →
    ∀ row, s.store.table w.key = some row →
      row.status = w.read.status ∨ (w.edit row).status = row.status

/-- Commits in step, and edits at any time. -/
def commitsInStep : Permitted where
  commit := InStep
  edit := fun _ => True

/-- What holds of the records and the transactions in every run. -/
structure Orderly (s : AuthState) : Prop where
  held : s.store.Held
  prepared : ∀ t, Prepared (s.store.txns t)
  fits : ∀ k row, s.store.table k = some row → Fits k row
  present : ∀ t, ∀ w ∈ (s.store.txns t).writes,
    ∃ row, s.store.table w.key = some row

/-- No request is under way, and no command has been created. -/
structure Quiet (s : AuthState) : Prop where
  fits : ∀ k row, s.store.table k = some row → Fits k row
  idle : ∀ t, s.store.txns t = {}
  uncommanded : ∀ c, AuthInsert.command c ∉ s.store.inserted

theorem AuthStart.quiet {s : AuthState} (h : AuthStart s) : Quiet s where
  fits := fun k row hrow => absurd ((h.blank k).symm.trans hrow) nofun
  idle := h.idle
  uncommanded := fun c hc => by
    rw [h.unrecorded] at hc
    exact absurd hc List.not_mem_nil

theorem Quiet.orderly {s : AuthState} (h : Quiet s) : Orderly s where
  held := by
    constructor
    · intro t k hk
      rw [h.idle] at hk
      exact absurd hk List.not_mem_nil
    · intro t w hw
      rw [h.idle] at hw
      exact absurd hw List.not_mem_nil
  prepared := fun t => h.idle t ▸ prepared_empty
  fits := h.fits
  present := fun t w hw => by
    rw [h.idle] at hw
    exact absurd hw List.not_mem_nil

section Steps

variable {sha256Hex : Bytes → String} {may : Permitted} {s s' : AuthState}

theorem append_idle {txn : AuthTxn} : RowTxn.append {} txn = txn := rfl

/-- The transaction a request was received as. -/
theorem received_txn {t : Nat} {txn : AuthTxn} (hidle : s.store.txns t = {}) :
    (s.store.read t txn).txns t = txn := by
  rw [RowStore.read, RowStore.setTxn_self, hidle, append_idle]

theorem Orderly.receive (h : Orderly s) {t : Nat} {txn : AuthTxn}
    (hidle : s.store.txns t = {}) (hreads : s.store.Reads t txn)
    (hprepared : Prepared txn) :
    Orderly { s with store := s.store.read t txn } := by
  refine ⟨h.held.read hreads, fun u => ?_, h.fits, fun u w hw => ?_⟩
  · by_cases hu : u = t
    · rw [hu, received_txn hidle]
      exact hprepared
    · rw [RowStore.read, RowStore.setTxn_ne hu]
      exact h.prepared u
  · by_cases hu : u = t
    · rw [hu, received_txn hidle] at hw
      exact ⟨w.read, hreads.current w hw⟩
    · rw [RowStore.read, RowStore.setTxn_ne hu] at hw
      exact h.present u w hw

theorem present_written {writes : List AuthWrite}
    {table : RecordKey → Option AuthRecord} {k : RecordKey}
    (h : ∃ row, table k = some row) :
    ∃ row, RowStore.written writes table k = some row := by
  obtain ⟨row, hrow⟩ := h
  obtain ⟨row', hrow', -⟩ : ∃ row', RowStore.written writes table k =
      some row' ∧ () = () :=
    RowStore.written_keeps (f := fun _ => ()) hrow fun _ _ _ => rfl
  exact ⟨row', hrow'⟩

theorem Orderly.commit (h : Orderly s) {t : Nat} (hc : s.store.Commits t) :
    Orderly { s with store := s.store.commit t } := by
  refine ⟨h.held.commit hc, fun u => ?_, fun k row hrow => ?_, fun u w hw => ?_⟩
  · by_cases hu : u = t
    · rw [hu, RowStore.commit_self]
      exact prepared_empty
    · rw [RowStore.commit_ne hu]
      exact h.prepared u
  · rcases RowStore.written_eq_some hrow with ⟨w, hw, rfl, row₀, hrow₀, rfl⟩ | hold
    · exact ((h.prepared t).modest w hw).fits _ _ (h.fits _ _ hrow₀)
    · exact h.fits k row hold
  · by_cases hu : u = t
    · rw [hu, RowStore.commit_self] at hw
      exact absurd hw List.not_mem_nil
    · rw [RowStore.commit_ne hu] at hw
      exact present_written (h.present u w hw)

theorem Orderly.rollback (h : Orderly s) {t : Nat} :
    Orderly { s with store := s.store.abort t } := by
  refine ⟨h.held.abort, fun u => ?_, h.fits, fun u w hw => ?_⟩
  · by_cases hu : u = t
    · rw [hu, RowStore.abort, RowStore.setTxn_self]
      exact prepared_empty
    · rw [RowStore.abort, RowStore.setTxn_ne hu]
      exact h.prepared u
  · by_cases hu : u = t
    · rw [hu, RowStore.abort, RowStore.setTxn_self] at hw
      exact absurd hw List.not_mem_nil
    · rw [RowStore.abort, RowStore.setTxn_ne hu] at hw
      exact h.present u w hw

theorem Orderly.create (h : Orderly s) {k : RecordKey} {row : AuthRecord}
    (hk : s.store.table k = none) (hfits : Fits k row) :
    Orderly { s with store := s.store.create k row } := by
  refine ⟨h.held.create hk, h.prepared, fun k' row' hrow' => ?_,
    fun u w hw => ?_⟩
  · by_cases hk' : k' = k
    · rw [hk'] at hrow' ⊢
      have hself : (s.store.create k row).table k = some row :=
        Function.update_self ..
      obtain rfl := Option.some.inj (hself.symm.trans hrow')
      exact hfits
    · have hne : (s.store.create k row).table k' = s.store.table k' :=
        Function.update_of_ne hk' ..
      exact h.fits k' row' (hne ▸ hrow')
  · obtain ⟨row', hrow'⟩ := h.present u w hw
    have hne : w.key ≠ k := by
      intro he
      rw [he, hk] at hrow'
      cases hrow'
    refine ⟨row', ?_⟩
    show Function.update s.store.table k (some row) w.key = some row'
    rw [Function.update_of_ne hne]
    exact hrow'

theorem orderly_step (h : Orderly s) (hs : AuthStep sha256Hex may s s') :
    Orderly s' := by
  cases hs with
  | receive t request operatorID now hoperator hidle hreads =>
      exact h.receive hidle hreads (prepared_txn request)
  | commit t hmay hcommits hunique => exact h.commit hcommits
  | rollback t => exact h.rollback
  | create id operatorID agentID kind payload reason openRequests now
      hoperator hfresh hcreated => exact h.create hfresh trivial
  | activate id operatorID agentID kind payload justification ttlSeconds
      openCount now hoperator hfresh hcreated =>
      exact h.create hfresh trivial
  | edit tables hmay => exact ⟨h.held, h.prepared, h.fits, h.present⟩

/-! ## Closed records -/

/-- A write of a transaction in step leaves the status of a closed row. -/
theorem status_of_written (h : Orderly s) {t : Nat} (hin : InStep s t)
    {w : AuthWrite} (hw : w ∈ (s.store.txns t).writes) {row : AuthRecord}
    (hrow : s.store.table w.key = some row)
    (hterminal : row.status.terminal = true) :
    (w.edit row).status = row.status := by
  have hlive := ((h.prepared t).modest w hw).live
  by_cases hheld : w.key ∈ (s.store.txns t).held
  · have hread := h.held.fresh t w hw hheld
    obtain rfl := Option.some.inj (hrow.symm.trans hread)
    rw [hterminal] at hlive
    cases hlive
  · rcases hin w hw hheld row hrow with hsame | hkept
    · rw [← hsame, hterminal] at hlive
      cases hlive
    · exact hkept

theorem terminal_step (h : Orderly s)
    (hs : AuthStep sha256Hex commitsInStep s s') {k : RecordKey}
    {row : AuthRecord} (hrow : s.store.table k = some row)
    (hterminal : row.status.terminal = true) :
    ∃ row', s'.store.table k = some row' ∧ row'.status = row.status := by
  cases hs with
  | receive | rollback | edit => exact ⟨row, hrow, rfl⟩
  | commit t hmay hcommits hunique =>
      exact RowStore.written_keeps hrow fun w hw hkey =>
        status_of_written h hmay hw (hkey ▸ hrow) hterminal
  | create id operatorID agentID kind payload reason openRequests now
      hoperator hfresh hcreated =>
      have hne : k ≠ .request id := by
        intro he
        rw [he, hfresh] at hrow
        cases hrow
      refine ⟨row, ?_, rfl⟩
      show Function.update s.store.table _ _ k = some row
      rw [Function.update_of_ne hne]
      exact hrow
  | activate id operatorID agentID kind payload justification ttlSeconds
      openCount now hoperator hfresh hcreated =>
      have hne : k ≠ .override id := by
        intro he
        rw [he, hfresh] at hrow
        cases hrow
      refine ⟨row, ?_, rfl⟩
      show Function.update s.store.table _ _ k = some row
      rw [Function.update_of_ne hne]
      exact hrow

/-- The records a command cites are consumed. -/
def Spent (s : AuthState) (c : DispatchedCommand) : Prop :=
  (∀ id, c.approvalRequestID = some id →
    ∃ r, s.store.table (.request id) = some (.request r) ∧
      r.status = .consumed) ∧
  ∀ id, c.emergencyOverrideID = some id →
    ∃ o, s.store.table (.override id) = some (.override o) ∧
      o.status = .consumed

theorem Spent.later {c : DispatchedCommand} (h : Spent s c)
    (hstay : ∀ k row, s.store.table k = some row →
      row.status.terminal = true →
        ∃ row', s'.store.table k = some row' ∧ row'.status = row.status) :
    Spent s' c := by
  constructor
  · intro id hid
    obtain ⟨r, hr, hstatus⟩ := h.1 id hid
    have hclosed : (AuthRecord.request r).status = .request .consumed :=
      congrArg RecordStatus.request hstatus
    obtain ⟨row, hrow, hsame⟩ := hstay _ _ hr (by rw [hclosed]; rfl)
    rw [hclosed] at hsame
    cases row with
    | request r' => exact ⟨r', hrow, RecordStatus.request.inj hsame⟩
    | override o => cases hsame
  · intro id hid
    obtain ⟨o, ho, hstatus⟩ := h.2 id hid
    have hclosed : (AuthRecord.override o).status = .override .consumed :=
      congrArg RecordStatus.override hstatus
    obtain ⟨row, hrow, hsame⟩ := hstay _ _ ho (by rw [hclosed]; rfl)
    rw [hclosed] at hsame
    cases row with
    | request r => cases hsame
    | override o' => exact ⟨o', hrow, RecordStatus.override.inj hsame⟩

/-- The commit of a dispatch consumes what it cites. -/
theorem spent_commit (h : Orderly s) {t : Nat} {c : DispatchedCommand}
    (hc : AuthInsert.command c ∈ (s.store.txns t).inserts) :
    Spent { s with store := s.store.commit t } c := by
  constructor
  · intro id hid
    obtain ⟨r, hwrites⟩ := (h.prepared t).spends c hc id hid
    have hmem : spendApproval id r c.createdAt ∈ (s.store.txns t).writes := by
      rw [hwrites]
      exact List.mem_singleton_self _
    obtain ⟨row, hrow⟩ := h.present t _ hmem
    have hfits := h.fits _ _ hrow
    cases row with
    | override o => exact hfits.elim
    | request r' =>
        refine ⟨r'.consume c.createdAt, ?_, rfl⟩
        have hrow' : s.store.table (.request id) = some (.request r') := hrow
        show RowStore.written (s.store.txns t).writes s.store.table _ = _
        simp [RowStore.written, hwrites, spendApproval, updateRequest, hrow',
          AuthRecord.editRequest]
  · intro id hid
    obtain ⟨o, hwrites⟩ := (h.prepared t).spendsOverride c hc id hid
    have hmem : spendEmergencyOverride id o c.createdAt ∈
        (s.store.txns t).writes := by
      rw [hwrites]
      exact List.mem_singleton_self _
    obtain ⟨row, hrow⟩ := h.present t _ hmem
    have hfits := h.fits _ _ hrow
    cases row with
    | request r => exact hfits.elim
    | override o' =>
        refine ⟨o'.consume c.createdAt, ?_, rfl⟩
        have hrow' : s.store.table (.override id) = some (.override o') := hrow
        show RowStore.written (s.store.txns t).writes s.store.table _ = _
        simp [RowStore.written, hwrites, spendEmergencyOverride, updateOverride,
          hrow', AuthRecord.editOverride]

/-- Orderly, and every command created has spent what it cites. -/
structure Settled (s : AuthState) : Prop where
  orderly : Orderly s
  spent : ∀ c, AuthInsert.command c ∈ s.store.inserted → Spent s c

theorem settled_step (h : Settled s)
    (hs : AuthStep sha256Hex commitsInStep s s') : Settled s' := by
  have hstay := fun k row => @terminal_step sha256Hex s s' h.orderly hs k row
  refine ⟨orderly_step h.orderly hs, fun c hc => ?_⟩
  by_cases hold : AuthInsert.command c ∈ s.store.inserted
  · exact (h.spent c hold).later hstay
  · cases hs with
    | commit t hmay hcommits hunique =>
        rcases List.mem_append.mp hc with hin | hnew
        · exact absurd hin hold
        · exact spent_commit h.orderly hnew
    | receive | rollback | create | activate | edit => exact absurd hc hold

end Steps

/-- In a run in step, from records of any kind, a closed record keeps its
status and a command's records stay consumed. -/
theorem closed_records_stay {sha256Hex : Bytes → String}
    {s₀ s s' : AuthState} (hquiet : Quiet s₀)
    (hrun : AuthRun sha256Hex commitsInStep s₀ s)
    (hlater : AuthRun sha256Hex commitsInStep s s') :
    (∀ k row, s.store.table k = some row → row.status.terminal = true →
      ∃ row', s'.store.table k = some row' ∧ row'.status = row.status) ∧
    ∀ c, AuthInsert.command c ∈ s.store.inserted → Spent s' c := by
  have hstart : Settled s₀ :=
    ⟨hquiet.orderly, fun c hc => absurd hc (hquiet.uncommanded c)⟩
  have hsettled : Settled s := invariant_of_steps (I := Settled)
    (fun _ _ hi hs => settled_step hi hs) hstart hrun
  have hstay : ∀ k row, s.store.table k = some row →
      row.status.terminal = true →
        ∃ row', s'.store.table k = some row' ∧ row'.status = row.status := by
    intro k row hrow hterminal
    have hboth : Settled s' ∧
        ∃ row', s'.store.table k = some row' ∧ row'.status = row.status :=
      invariant_of_steps
        (I := fun u => Settled u ∧
          ∃ row', u.store.table k = some row' ∧ row'.status = row.status)
        (fun u u' hi hs => by
          obtain ⟨hsettled, row', hrow', hsame⟩ := hi
          obtain ⟨row'', hrow'', hsame'⟩ := terminal_step hsettled.orderly hs
            hrow' (hsame ▸ hterminal)
          exact ⟨settled_step hsettled hs, row'', hrow'', hsame'.trans hsame⟩)
        ⟨hsettled, row, hrow, rfl⟩ hlater
    exact hboth.2
  exact ⟨hstay, fun c hc => (hsettled.spent c hc).later hstay⟩

/-! ## A cancellation read before the spend -/

def requester : Operator :=
  ⟨"op-1", "ann@example.test", .operator, false, false, none, none⟩

def reviewer : Operator :=
  ⟨"op-2", "bob@example.test", .operator, false, false, none, none⟩

/-- One client with one agent, two operators, and a policy that asks for one
approval of an inventory. -/
def smallTables : ApprovalTables where
  operators := fun id =>
    if id = "op-1" then some requester
    else if id = "op-2" then some reviewer else none
  memberships := fun _ client =>
    if client = "client-1" then some .clientOperator else none
  directory := ⟨fun id => if id = "agent-1" then some "site-1" else none,
    fun id => if id = "site-1" then some "client-1" else none⟩
  operators_id := by
    intro id operator h
    split at h
    · next hid =>
        cases h
        exact hid.symm
    · split at h
      · next hid =>
          cases h
          exact hid.symm
      · cases h
  policies := [{
    id := "policy-1", scope := .global, scopeID := none
    commandKinds := [.collectInventory], requiredApprovals := 1
    requestTTLSeconds := 3600, enabled := true
    emergencyOverrideAllowed := false, createdAt := 0 }]

/-- Any two documents have one digest here; the run does not depend on it. -/
def flatDigest : Bytes → String := fun _ => "digest"

def approvedRequest : ApprovalRequest where
  agentID := "agent-1"
  clientID := some "client-1"
  siteID := some "site-1"
  kind := .collectInventory
  payload := .obj []
  payloadSHA256 := "digest"
  policyID := some "policy-1"
  requiredApprovals := 1
  requestedByOperatorID := some "op-1"
  requestedByEmail := "ann@example.test"
  reason := "quarterly inventory"
  status := .approved
  createdAt := 0
  expiresAt := 3600000000
  decidedAt := some 5

def approval : ApprovalDecision where
  requestID := "request-1"
  operatorID := "op-2"
  operatorEmail := "bob@example.test"
  operatorRole := .operator
  decision := .approve
  reason := "looks right to me"
  createdAt := 5

/-- One request, approved by the reviewer. -/
def oneApproved : AuthState where
  tables := smallTables
  store := {
    table := fun k =>
      if k = .request "request-1" then some (.request approvedRequest) else none
    inserted := [.decision approval]
    txns := fun _ => {} }

def inventoryDispatch : DispatchRequest where
  agentID := "agent-1"
  kind := .collectInventory
  payload := .obj []
  approvalRequestID := some "request-1"
  emergencyOverrideID := none

def cancelTxn : AuthTxn :=
  { writes := [updateRequest "request-1" approvedRequest
      (·.cancel 10 "ann@example.test" "no longer needed")] }

def spendTxn : AuthTxn :=
  { writes := [spendApproval "request-1" approvedRequest 10]
    inserts := [.command (dispatchedCommand requester inventoryDispatch 10)] }

/-- The cancellation and the dispatch have both been read. -/
def bothRead : AuthState :=
  { oneApproved with
    store := (oneApproved.store.read 1 cancelTxn).read 2 spendTxn }

theorem oneApproved_quiet : Quiet oneApproved where
  fits := by
    intro k row hrow
    simp only [oneApproved] at hrow
    split at hrow
    · next hk =>
        cases hrow
        rw [hk]
        trivial
    · cases hrow
  idle := fun _ => rfl
  uncommanded := by
    intro c hc
    cases List.mem_singleton.mp hc

theorem reads_one {store : AuthStore} {t : Nat} {txn : AuthTxn}
    {w : AuthWrite} (hidle : store.txns t = {}) (hheld : txn.held = [])
    (hwrites : txn.writes = [w]) (hread : store.table w.key = some w.read) :
    store.Reads t txn := by
  refine ⟨fun w' hw' => ?_, fun k hk => ?_, fun w' hw' => ?_⟩
  · rw [hwrites] at hw'
    cases List.mem_singleton.mp hw'
    exact hread
  · rw [hheld] at hk
    exact absurd hk List.not_mem_nil
  · rw [hidle] at hw'
    exact absurd hw' List.not_mem_nil

theorem bothRead_run {may : Permitted} :
    AuthRun flatDigest may oneApproved bothRead := by
  have hcancel := @AuthStep.receive flatDigest may oneApproved 1
    (.cancel "request-1" "no longer needed") "op-1" 10 requester rfl rfl
    (@reads_one _ 1 cancelTxn _ rfl rfl rfl rfl)
  have hdispatch := @AuthStep.receive flatDigest may
    { oneApproved with store := oneApproved.store.read 1 cancelTxn } 2
    (.dispatch inventoryDispatch) "op-1" 10 requester rfl rfl
    (@reads_one _ 2 spendTxn _ rfl rfl rfl rfl)
  exact (Relation.ReflTransGen.single hcancel).tail hdispatch

theorem bothRead_unheld (u : Nat) : (bothRead.store.txns u).held = [] := by
  by_cases htwo : u = 2
  · rw [htwo]
    rfl
  · have hsame : bothRead.store.txns u =
        (oneApproved.store.read 1 cancelTxn).txns u :=
      RowStore.setTxn_ne htwo _
    by_cases hone : u = 1
    · rw [hsame, hone]
      rfl
    · rw [hsame, RowStore.read, RowStore.setTxn_ne hone]
      rfl

/-- The dispatch has committed. -/
def spentState : AuthState :=
  { bothRead with store := bothRead.store.commit 2 }

/-- The cancellation has committed after it. -/
def overwrittenState : AuthState :=
  { spentState with store := spentState.store.commit 1 }

theorem spentState_run {may : Permitted} (hmay : may.commit bothRead 2) :
    AuthRun flatDigest may oneApproved spentState := by
  refine bothRead_run.tail (AuthStep.commit 2 hmay ⟨?_, ?_⟩ ?_)
  · intro w _ ⟨u, _, hk⟩
    rw [bothRead_unheld] at hk
    exact absurd hk List.not_mem_nil
  · intro w hw row hrow
    cases List.mem_singleton.mp hw
    cases hrow
    rfl
  · intro d hd
    cases List.mem_singleton.mp hd

theorem overwrittenState_step :
    AuthRun flatDigest anyCommit spentState overwrittenState := by
  refine Relation.ReflTransGen.single (AuthStep.commit 1 trivial ⟨?_, ?_⟩ ?_)
  · intro w _ ⟨u, _, hk⟩
    by_cases htwo : u = 2
    · rw [htwo] at hk
      exact absurd hk List.not_mem_nil
    · have hsame : spentState.store.txns u = bothRead.store.txns u :=
        RowStore.commit_ne htwo
      rw [hsame, bothRead_unheld] at hk
      exact absurd hk List.not_mem_nil
  · intro w hw row _
    cases List.mem_singleton.mp hw
    rfl
  · intro d hd
    exact absurd hd List.not_mem_nil

/-- The approval is spent on a command, and reads as cancelled afterwards. -/
theorem spent_approval_reads_cancelled :
    ∃ sha256Hex s₀ s s', Quiet s₀ ∧
      AuthRun sha256Hex anyCommit s₀ s ∧ AuthRun sha256Hex anyCommit s s' ∧
      (∃ c, AuthInsert.command c ∈ s.store.inserted ∧
        c.approvalRequestID = some "request-1") ∧
      (s.store.table (.request "request-1")).map (·.status) =
        some (.request .consumed) ∧
      (s'.store.table (.request "request-1")).map (·.status) =
        some (.request .cancelled) := by
  refine ⟨flatDigest, oneApproved, spentState, overwrittenState,
    oneApproved_quiet, spentState_run trivial, overwrittenState_step, ?_, rfl,
    rfl⟩
  exact ⟨dispatchedCommand requester inventoryDispatch 10,
    List.mem_append_right _ (List.mem_singleton_self _), rfl⟩

theorem inStep_bothRead : InStep bothRead 2 := by
  intro w hw _ row hrow
  cases List.mem_singleton.mp hw
  cases hrow
  exact .inl rfl

/-! ## Requests on records that are closed -/

/-- A transaction that writes nothing is always in step, and may commit. -/
theorem empty_commit {s : AuthState} {t : Nat} (h : s.store.txns t = {}) :
    AuthStep flatDigest commitsInStep s
      { s with store := s.store.commit t } := by
  refine AuthStep.commit t ?_ ⟨?_, ?_⟩ ?_
  · intro w hw
    rw [h] at hw
    exact absurd hw List.not_mem_nil
  · intro w hw
    rw [h] at hw
    exact absurd hw List.not_mem_nil
  · intro w hw
    rw [h] at hw
    exact absurd hw List.not_mem_nil
  · intro d hd
    rw [h] at hd
    exact absurd hd List.not_mem_nil

/-- The client of the first cancellation is gone. -/
def abandoned : AuthState :=
  { spentState with store := spentState.store.abort 1 }

/-- The requester cancels again, and finds the approval spent. -/
def cancelledAgain : AuthState :=
  { abandoned with store := (abandoned.store.read 1 {}).commit 1 }

/-- The approval is cited once more, which is refused. -/
def citedAgain : AuthState :=
  { cancelledAgain with store := (cancelledAgain.store.read 2 {}).commit 2 }

theorem reads_nothing {store : AuthStore} {t : Nat} : store.Reads t {} :=
  ⟨fun _ hw => absurd hw List.not_mem_nil,
    fun _ hk => absurd hk List.not_mem_nil, fun _ _ => List.not_mem_nil⟩

theorem citedAgain_run :
    AuthRun flatDigest commitsInStep spentState citedAgain := by
  have habandoned : AuthRun flatDigest commitsInStep spentState abandoned :=
    .single (AuthStep.rollback 1)
  have hcancel := @AuthStep.receive flatDigest commitsInStep abandoned 1
    (.cancel "request-1" "no longer needed") "op-1" 20 requester rfl rfl
    reads_nothing
  have hdispatch := @AuthStep.receive flatDigest commitsInStep cancelledAgain 2
    (.dispatch inventoryDispatch) "op-1" 30 requester rfl rfl reads_nothing
  exact (((habandoned.tail hcancel).tail (empty_commit rfl)).tail
    hdispatch).tail (empty_commit rfl)

def expiryTxn : AuthTxn := expireRequest "request-1" approvedRequest 3600000000

/-- Two requests have read the approval when it was due. -/
def bothDue : AuthState :=
  { oneApproved with
    store := (oneApproved.store.read 1 expiryTxn).read 2 expiryTxn }

def expiredState : AuthState :=
  { bothDue with store := bothDue.store.commit 1 }

/-- Both have written that it expired. -/
def expiredTwice : AuthState :=
  { expiredState with store := expiredState.store.commit 2 }

/-- A request that expires the approval commits, where it was live or has
expired. -/
theorem expiry_commit {s : AuthState} {t : Nat} {r : ApprovalRequest}
    (htxn : s.store.txns t = expiryTxn)
    (hfree : ∀ u, u ≠ t → (s.store.txns u).held = [])
    (hr : s.store.table (.request "request-1") = some (.request r))
    (hstatus : r.status = .approved ∨ r.status = .expired) :
    AuthStep flatDigest commitsInStep s
      { s with store := s.store.commit t } := by
  refine AuthStep.commit t ?_ ⟨?_, ?_⟩ ?_
  · intro w hw _ row hrow
    rw [htxn] at hw
    cases List.mem_singleton.mp hw
    cases hr.symm.trans hrow
    rcases hstatus with hlive | hexpired
    · exact .inl (congrArg RecordStatus.request hlive)
    · exact .inr (congrArg RecordStatus.request hexpired.symm)
  · intro w _ ⟨u, hu, hk⟩
    rw [hfree u hu] at hk
    exact absurd hk List.not_mem_nil
  · intro w hw row _
    rw [htxn] at hw
    cases List.mem_singleton.mp hw
    rfl
  · intro d hd
    rw [htxn] at hd
    exact absurd hd List.not_mem_nil

theorem bothDue_unheld (u : Nat) : (bothDue.store.txns u).held = [] := by
  by_cases htwo : u = 2
  · rw [htwo]
    rfl
  · have hsame : bothDue.store.txns u =
        (oneApproved.store.read 1 expiryTxn).txns u :=
      RowStore.setTxn_ne htwo _
    by_cases hone : u = 1
    · rw [hsame, hone]
      rfl
    · rw [hsame, RowStore.read, RowStore.setTxn_ne hone]
      rfl

theorem expiredState_run :
    AuthRun flatDigest commitsInStep oneApproved expiredState := by
  have hfirst := @AuthStep.receive flatDigest commitsInStep oneApproved 1
    (.get "request-1") "op-1" 3600000000 requester rfl rfl
    (@reads_one _ 1 expiryTxn _ rfl rfl rfl rfl)
  have hsecond := @AuthStep.receive flatDigest commitsInStep
    { oneApproved with store := oneApproved.store.read 1 expiryTxn } 2
    (.get "request-1") "op-2" 3600000000 reviewer rfl rfl
    (@reads_one _ 2 expiryTxn _ rfl rfl rfl rfl)
  exact ((Relation.ReflTransGen.single hfirst).tail hsecond).tail
    (expiry_commit rfl (fun u _ => bothDue_unheld u) rfl (.inl rfl))

theorem expiredTwice_step :
    AuthStep flatDigest commitsInStep expiredState expiredTwice := by
  refine expiry_commit rfl (fun u _ => ?_) rfl (.inr rfl)
  by_cases hone : u = 1
  · rw [hone]
    rfl
  · have hsame : expiredState.store.txns u = bothDue.store.txns u :=
      RowStore.commit_ne hone
    rw [hsame, bothDue_unheld]

/-- A spent approval is cancelled and cited again, and an expired one is
expired by the other request that found it due. -/
theorem closed_records_stay_spent :
    ((∃ row, citedAgain.store.table (.request "request-1") = some row ∧
        row.status = .request .consumed) ∧
      ∀ c, AuthInsert.command c ∈ spentState.store.inserted →
        Spent citedAgain c) ∧
    ∃ row, expiredTwice.store.table (.request "request-1") = some row ∧
      row.status = .request .expired := by
  have hspent := @closed_records_stay flatDigest _ _ _ oneApproved_quiet
    (spentState_run inStep_bothRead) citedAgain_run
  have hexpired := @closed_records_stay flatDigest _ _ _ oneApproved_quiet
    expiredState_run (.single expiredTwice_step)
  exact ⟨⟨hspent.1 (.request "request-1") _ rfl rfl, hspent.2⟩,
    hexpired.1 (.request "request-1") _ rfl rfl⟩

end NodeLink.Proofs
