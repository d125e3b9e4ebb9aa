import NodeLink.Proofs.TwoPerson

/-!
# The bar an approval has to meet

A request carries the number of approvals of the policy that governed in the
step that created it, and that number is what a dispatch is held to, whatever
has become of the policy since. Of the policies that govern a dispatch one is picked, by
scope, age and id; a policy more is picked or changes nothing.
-/

namespace NodeLink.Proofs

open Lib Server

/-! ## The policy a request was raised under -/

/-- The request, as it stands in `s₁`, was created in the step from `sᵣ` to
`sₙ`, under the policy that governed it then and whose number it carries. -/
structure RaisedUnder (sha256Hex : Bytes → String) (s₀ sᵣ sₙ s₁ : AuthState)
    (id siteID : String) (r : ApprovalRequest) (policy : ApprovalPolicy) :
    Prop where
  before : AuthRun sha256Hex anyCommit s₀ sᵣ
  unraised : sᵣ.store.requestAt id = none
  step : AuthStep sha256Hex anyCommit sᵣ sₙ
  created : ∃ operator payload reason openRequests now rₙ,
    createApprovalRequest sha256Hex sᵣ.tables operator r.agentID r.kind payload
        reason openRequests now = some rₙ ∧
      sₙ.store.requestAt id = some rₙ ∧ requestTerms r = requestTerms rₙ
  site : sᵣ.tables.directory.agentSite r.agentID = some siteID
  governs : resolvePolicy sᵣ.tables ⟨r.agentID, siteID⟩ r.kind = some policy
  after : AuthRun sha256Hex anyCommit sₙ s₁
  row : s₁.store.requestAt id = some r
  policyID : r.policyID = some policy.id
  required : r.requiredApprovals = policy.requiredApprovals

section Raised

variable {sha256Hex : Bytes → String} {s₀ s : AuthState}

/-- What a new request takes from the policy it is raised under. -/
theorem policy_of_created {tables : ApprovalTables} {operator : Operator}
    {agentID reason : String} {kind : CommandKind} {payload : StoredJson}
    {openRequests : Nat} {now : Int} {r : ApprovalRequest}
    (h : createApprovalRequest sha256Hex tables operator agentID kind payload
      reason openRequests now = some r) :
    (agentID = r.agentID ∧ kind = r.kind) ∧
    ∃ siteID policy, tables.directory.agentSite r.agentID = some siteID ∧
      resolvePolicy tables ⟨r.agentID, siteID⟩ r.kind = some policy ∧
      r.policyID = some policy.id ∧
      r.requiredApprovals = policy.requiredApprovals := by
  rw [createApprovalRequest] at h
  split at h
  · cases h
  · next siteID hsite =>
      split at h
      · obtain ⟨policy, hpolicy, rfl⟩ := Option.map_eq_some_iff.mp h
        exact ⟨⟨rfl, rfl⟩, siteID, policy, hsite, hpolicy, rfl, rfl⟩
      · cases h

/-- Every request was raised under some policy, whose number it carries. -/
theorem raised_run (hstart : AuthStart s₀)
    (hrun : AuthRun sha256Hex anyCommit s₀ s) {id : String}
    {r : ApprovalRequest} (hr : s.store.requestAt id = some r) :
    ∃ sᵣ sₙ siteID policy,
      RaisedUnder sha256Hex s₀ sᵣ sₙ s id siteID r policy := by
  induction hrun generalizing r with
  | refl =>
      rw [requestAt_eq_some, hstart.blank] at hr
      cases hr
  | @tail s s' hrun hs ih =>
      have horderly := (backed_run hstart hrun).orderly
      cases hold : s.store.table (.request id) with
      | some row =>
          -- the request stands since an earlier state, on the same terms
          obtain ⟨r₀, rfl, hr₀⟩ := horderly.requestRow hold
          obtain ⟨r', hr', hterms, -⟩ := request_step horderly hs hr₀
          obtain rfl := Option.some.inj (hr.symm.trans hr')
          obtain ⟨hagent, hkind, -, -, hneeded, -⟩ := fields_of_terms hterms
          have hpolicyID : (requestTerms r).policyID =
              (requestTerms r₀).policyID := by rw [hterms]
          change r.policyID = r₀.policyID at hpolicyID
          obtain ⟨sᵣ, sₙ, siteID, policy, hraised⟩ := ih hr₀
          obtain ⟨operator, payload, reason, openRequests, now, rₙ, hcreated,
            hrₙ, hterms₀⟩ := hraised.created
          refine ⟨sᵣ, sₙ, siteID, policy, hraised.before, hraised.unraised,
            hraised.step, ?_, ?_, ?_, hraised.after.tail hs, hr, ?_, ?_⟩
          · rw [hagent, hkind]
            exact ⟨operator, payload, reason, openRequests, now, rₙ, hcreated,
              hrₙ, hterms.trans hterms₀⟩
          · rw [hagent]
            exact hraised.site
          · rw [hagent, hkind]
            exact hraised.governs
          · rw [hpolicyID]
            exact hraised.policyID
          · rw [hneeded]
            exact hraised.required
      | none =>
          obtain ⟨operator, _, _, payload, reason, openRequests, now,
            hcreated⟩ := created_of_new hs hold hr
          obtain ⟨⟨rfl, rfl⟩, siteID, policy, hsite, hgoverns, hid,
            hrequired⟩ := policy_of_created hcreated
          refine ⟨s, s', siteID, policy, hrun, ?_, hs,
            ⟨operator, payload, reason, openRequests, now, r, hcreated, hr, rfl⟩,
            hsite, hgoverns, .refl, hr, hid, hrequired⟩
          rw [AuthStore.requestAt, hold]

/-- The command was created when as many people as the policy asks for were
eligible who had approved its request. -/
structure MeetsBar (sha256Hex : Bytes → String) (s₁ s₂ s : AuthState)
    (c : DispatchedCommand) (id : String) (policy : ApprovalPolicy) : Prop where
  step : AuthStep sha256Hex anyCommit s₁ s₂
  after : AuthRun sha256Hex anyCommit s₂ s
  inserted : s₂.store.inserted = s₁.store.inserted ++ [.command c]
  quorum : ∃ siteID, s₁.tables.directory.agentSite c.agentID = some siteID ∧
    ∃ operators : List String, operators.Nodup ∧
      policy.requiredApprovals ≤ operators.length ∧
      ∀ operatorID ∈ operators, Approved s₁ c id siteID operatorID

theorem dispatch_meets_bar (hstart : AuthStart s₀)
    (hrun : AuthRun sha256Hex anyCommit s₀ s) {c : DispatchedCommand}
    {id : String} (hc : AuthInsert.command c ∈ s.store.inserted)
    (hid : c.approvalRequestID = some id) :
    ∃ sᵣ sₙ s₁ s₂ siteID r policy,
      RaisedUnder sha256Hex s₀ sᵣ sₙ s₁ id siteID r policy ∧
      (r.agentID = c.agentID ∧ r.kind = c.kind) ∧
      MeetsBar sha256Hex s₁ s₂ s c id policy := by
  obtain ⟨s₁, s₂, r, site, hcreated⟩ := created_run hstart hrun hc hid
  have hgranted := hcreated.granted
  obtain ⟨sᵣ, sₙ, siteID, policy, hraised⟩ :=
    raised_run hstart hcreated.before hgranted.row
  obtain ⟨operators, hnodup, henough, happroved⟩ := hgranted.quorum
  exact ⟨sᵣ, sₙ, s₁, s₂, siteID, r, policy, hraised,
    ⟨hgranted.sameAgent, hgranted.sameKind⟩, hcreated.step, hcreated.after,
    hcreated.inserted, site, hgranted.site, operators, hnodup,
    hraised.required ▸ henough, happroved⟩

end Raised

/-! ## A policy more -/

/-- `tables'` has one enabled policy more, `extra`. Ids are keys. -/
structure OneMore (tables tables' : ApprovalTables) (extra : ApprovalPolicy) :
    Prop where
  authority : tables'.toAuthority = tables.toAuthority
  enabled : List.Perm (tables'.policies.filter (·.enabled))
    (extra :: tables.policies.filter (·.enabled))
  keys : (tables'.policies.map (·.id)).Nodup

section OneMore

variable {tables tables' : ApprovalTables} {extra : ApprovalPolicy}
variable {agent : AgentPlace} {kind : CommandKind}

theorem mem_governing {policy : ApprovalPolicy} :
    policy ∈ tables.policies.filter
        (·.governs (tables.agentClientID agent) agent kind) ↔
      policy ∈ tables.policies.filter (·.enabled) ∧
        policy.governs (tables.agentClientID agent) agent kind = true := by
  rw [List.mem_filter, List.mem_filter]
  constructor
  · intro ⟨hmem, hgoverns⟩
    refine ⟨⟨hmem, ?_⟩, hgoverns⟩
    rw [ApprovalPolicy.governs, Bool.and_eq_true, Bool.and_eq_true] at hgoverns
    exact hgoverns.1.1
  · intro ⟨⟨hmem, _⟩, hgoverns⟩
    exact ⟨hmem, hgoverns⟩

theorem resolvePolicy_eq_some {policy : ApprovalPolicy}
    (h : resolvePolicy tables agent kind = some policy) :
    (policy ∈ tables.policies.filter (·.enabled) ∧
      policy.governs (tables.agentClientID agent) agent kind = true) ∧
    ∀ other ∈ tables.policies.filter (·.enabled),
      other.governs (tables.agentClientID agent) agent kind = true →
        policy.sortKey ≤ other.sortKey := by
  refine ⟨mem_governing.mp (List.argmin_mem h), fun other hmem hgoverns => ?_⟩
  exact List.le_of_mem_argmin (mem_governing.mpr ⟨hmem, hgoverns⟩) h

theorem OneMore.mem (h : OneMore tables tables' extra)
    {policy : ApprovalPolicy} :
    policy ∈ tables'.policies.filter (·.enabled) ↔
      policy = extra ∨ policy ∈ tables.policies.filter (·.enabled) := by
  rw [h.enabled.mem_iff, List.mem_cons]

theorem OneMore.governs (h : OneMore tables tables' extra)
    {policy : ApprovalPolicy} :
    policy.governs (tables'.agentClientID agent) agent kind =
      policy.governs (tables.agentClientID agent) agent kind := by
  rw [h.authority]

/-- The sort key holds the id, which no two policies share. -/
theorem OneMore.eq_of_sortKey (h : OneMore tables tables' extra)
    {p q : ApprovalPolicy} (hp : p ∈ tables'.policies.filter (·.enabled))
    (hq : q ∈ tables'.policies.filter (·.enabled))
    (hkey : p.sortKey = q.sortKey) : p = q := by
  have hlex := Prod.mk.inj (toLex.injective hkey)
  have hid : p.id = q.id := (Prod.mk.inj (toLex.injective hlex.2)).2
  exact List.inj_on_of_nodup_map h.keys (List.mem_filter.mp hp).1
    (List.mem_filter.mp hq).1 hid

/-- One policy more leaves the policy that governs, or takes its place from
ahead of it. -/
theorem OneMore.resolve (h : OneMore tables tables' extra) :
    resolvePolicy tables' agent kind = resolvePolicy tables agent kind ∨
      (resolvePolicy tables' agent kind = some extra ∧
        ∀ q, resolvePolicy tables agent kind = some q →
          extra.sortKey < q.sortKey) := by
  cases hnew : resolvePolicy tables' agent kind with
  | none =>
      left
      cases hold : resolvePolicy tables agent kind with
      | none => rfl
      | some q =>
          obtain ⟨⟨hmem, hgoverns⟩, -⟩ := resolvePolicy_eq_some hold
          have hnil := List.argmin_eq_none.mp hnew
          have hin := mem_governing.mpr
            ⟨h.mem.mpr (.inr hmem), h.governs.trans hgoverns⟩
          rw [hnil] at hin
          exact absurd hin List.not_mem_nil
  | some p =>
      obtain ⟨⟨hpmem, hpgoverns⟩, hpmin⟩ := resolvePolicy_eq_some hnew
      have hmin : ∀ q, resolvePolicy tables agent kind = some q →
          p.sortKey ≤ q.sortKey ∧ (p.sortKey = q.sortKey → p = q) := by
        intro q hold
        obtain ⟨⟨hqmem, hqgoverns⟩, -⟩ := resolvePolicy_eq_some hold
        have hqmem' := h.mem.mpr (.inr hqmem)
        exact ⟨hpmin q hqmem' (h.governs.trans hqgoverns),
          h.eq_of_sortKey hpmem hqmem'⟩
      by_cases hpold : p ∈ tables.policies.filter (·.enabled)
      · -- `p` governed before, so the one that was picked is `p` itself
        left
        have hin := mem_governing.mpr ⟨hpold, h.governs.symm.trans hpgoverns⟩
        cases hold : resolvePolicy tables agent kind with
        | none =>
            rw [List.argmin_eq_none.mp hold] at hin
            exact absurd hin List.not_mem_nil
        | some q =>
            obtain ⟨hle, heq⟩ := hmin q hold
            have hge : q.sortKey ≤ p.sortKey := List.le_of_mem_argmin hin hold
            rw [heq (le_antisymm hle hge)]
      · right
        obtain rfl : p = extra := (h.mem.mp hpmem).resolve_right hpold
        refine ⟨rfl, fun q hold => ?_⟩
        obtain ⟨hle, heq⟩ := hmin q hold
        refine lt_of_le_of_ne hle fun hkey => hpold ?_
        rw [heq hkey]
        exact (resolvePolicy_eq_some hold).1.1

/-- Nothing but the policy picked tells whether an override may be
activated. -/
theorem activatorRefusal_congr (h : OneMore tables tables' extra)
    (operator : Operator) (policy : Option ApprovalPolicy) :
    activatorRefusal tables'.toAuthority operator agent kind policy =
      activatorRefusal tables.toAuthority operator agent kind policy := by
  rw [h.authority]

theorem allowed_of_activator {auth : Authority} {operator : Operator}
    {policy : ApprovalPolicy}
    (h : activatorRefusal auth operator agent kind (some policy) = none) :
    policy.emergencyOverrideAllowed = true := by
  rw [activatorRefusal] at h
  split at h
  · cases h
  · split at h
    · cases h
    · next hallowed => exact not_not.mp hallowed

end OneMore

/-- The extra policy is the one that is picked, ahead of the one picked
before. -/
def TakesOver (tables tables' : ApprovalTables) (extra : ApprovalPolicy)
    (agent : AgentPlace) (kind : CommandKind) : Prop :=
  resolvePolicy tables' agent kind = some extra ∧
    ∀ q, resolvePolicy tables agent kind = some q → extra.sortKey < q.sortKey

/-- A command under an approval was created when the bar of the policy that
governed in the step that created the request, and which the request carries,
was met by people eligible at the dispatch; and a policy more, unless it takes
over, changes neither the number of approvals nor what an override is refused
for. -/
theorem approval_bar_kept {sha256Hex : Bytes → String} :
    (∀ (s₀ s : AuthState) (c : DispatchedCommand) (id : String),
      AuthStart s₀ → AuthRun sha256Hex anyCommit s₀ s →
      AuthInsert.command c ∈ s.store.inserted → c.approvalRequestID = some id →
      ∃ sᵣ sₙ s₁ s₂ siteID r policy,
        RaisedUnder sha256Hex s₀ sᵣ sₙ s₁ id siteID r policy ∧
        (r.agentID = c.agentID ∧ r.kind = c.kind) ∧
        MeetsBar sha256Hex s₁ s₂ s c id policy) ∧
    (∀ (tables tables' : ApprovalTables) (extra : ApprovalPolicy)
      (agent : AgentPlace) (kind : CommandKind), OneMore tables tables' extra →
      (∀ policy, resolvePolicy tables agent kind = some policy →
        ∃ policy', resolvePolicy tables' agent kind = some policy' ∧
          (policy'.requiredApprovals < policy.requiredApprovals →
            policy' = extra ∧ TakesOver tables tables' extra agent kind)) ∧
      (∀ operator,
        activatorRefusal tables.toAuthority operator agent kind
          (resolvePolicy tables agent kind) ≠ none →
        activatorRefusal tables'.toAuthority operator agent kind
          (resolvePolicy tables' agent kind) = none →
        extra.emergencyOverrideAllowed = true ∧
          TakesOver tables tables' extra agent kind)) := by
  refine ⟨fun _ _ _ _ hstart hrun hc hid =>
    dispatch_meets_bar hstart hrun hc hid, ?_⟩
  intro tables tables' extra agent kind h
  constructor
  · intro policy hpolicy
    rcases @OneMore.resolve _ _ _ agent kind h with hsame | htakes
    · exact ⟨policy, hsame.trans hpolicy, fun hlt => absurd hlt (lt_irrefl _)⟩
    · exact ⟨extra, htakes.1, fun _ => ⟨rfl, htakes⟩⟩
  · intro operator hrefused hallowed
    rw [activatorRefusal_congr h] at hallowed
    rcases @OneMore.resolve _ _ _ agent kind h with hsame | htakes
    · rw [hsame] at hallowed
      exact absurd hallowed hrefused
    · rw [htakes.1] at hallowed
      exact ⟨allowed_of_activator hallowed, htakes⟩

/-! ## A bar raised in between, and a policy that lowers it -/

def generalPolicy : ApprovalPolicy where
  id := "policy-1"
  scope := .global
  scopeID := none
  commandKinds := [.collectInventory]
  requiredApprovals := 2
  requestTTLSeconds := 3600
  enabled := true
  emergencyOverrideAllowed := false
  createdAt := 0

/-- A policy of the site, for the same kind. -/
def sitePolicy : ApprovalPolicy :=
  { generalPolicy with
    id := "policy-2"
    scope := .site
    scopeID := some "site-1"
    requiredApprovals := 1
    emergencyOverrideAllowed := true
    createdAt := 10 }

def strictTables : ApprovalTables :=
  { smallTables with policies := [generalPolicy] }

def siteTables : ApprovalTables :=
  { smallTables with policies := [sitePolicy, generalPolicy] }

def platformAdmin : Operator :=
  ⟨"op-3", "eve@example.test", .admin, false, true, none, none⟩

/-- The request has its one approval when the policy is made to ask for two. -/
def strictState : AuthState := { agreedState with tables := strictTables }

def strictSpending : AuthState :=
  { strictState with store := strictState.store.read 2 agreedTxn }

def strictDispatched : AuthState :=
  { strictSpending with store := strictSpending.store.commit 2 }

theorem agreedState_idle (t : Nat) : agreedState.store.txns t = {} := by
  by_cases hone : t = 1
  · rw [hone]
    rfl
  · have hidle : agreedState.store.txns t = approvingState.store.txns t :=
      RowStore.commit_ne hone
    rw [hidle, approvingState, RowStore.read, RowStore.setTxn_ne hone]
    rfl

theorem strict_run : AuthRun inventorySHA256 anyCommit blankState strictSpending := by
  have hagreed : AuthRun inventorySHA256 anyCommit blankState agreedState :=
    ((Relation.ReflTransGen.single asked_step).tail approving_step).tail
      agreed_step
  have hedit : AuthStep inventorySHA256 anyCommit agreedState strictState := by
    refine AuthStep.edit strictTables fun t hdispatching => ?_
    obtain ⟨c, hc⟩ := hdispatching
    rw [agreedState_idle] at hc
    exact absurd hc List.not_mem_nil
  have hread : AuthStep inventorySHA256 anyCommit strictState strictSpending :=
    @AuthStep.receive _ _ strictState 2 (.dispatch inventoryDispatch) "op-1" 10
      requester rfl rfl (@reads_one _ 2 agreedTxn _ rfl rfl rfl rfl)
  exact (hagreed.tail hedit).tail hread

theorem strict_step :
    AuthStep inventorySHA256 anyCommit strictSpending strictDispatched := by
  refine AuthStep.commit 2 trivial ⟨?_, ?_⟩ ?_
  · intro w _ ⟨u, hu, hk⟩
    have hsame : strictSpending.store.txns u = agreedState.store.txns u :=
      RowStore.setTxn_ne hu _
    rw [hsame, agreedState_idle] at hk
    exact absurd hk List.not_mem_nil
  · intro w hw row hrow
    cases List.mem_singleton.mp hw
    cases hrow
    rfl
  · intro d hd
    cases List.mem_singleton.mp hd

theorem strict_approver {operatorID : String}
    (h : Approved strictSpending (dispatchedCommand requester inventoryDispatch 10)
      "request-1" "site-1" operatorID) : operatorID = "op-2" := by
  obtain ⟨d, hd, hoperator, -⟩ := h.decided
  have hdecisions : strictSpending.store.decisionsOf "request-1" = [approval] :=
    rfl
  rw [hdecisions, List.mem_singleton] at hd
  rw [← hoperator, hd]
  rfl

theorem siteTables_more : OneMore strictTables siteTables sitePolicy :=
  ⟨rfl, List.Perm.refl _, by decide⟩

theorem resolve_siteTables :
    resolvePolicy siteTables ⟨"agent-1", "site-1"⟩ .collectInventory =
      some sitePolicy := by
  decide +kernel

/-- A command is dispatched with one approval under a policy that asks for two,
and a policy of the site lowers the bar and lets an override through. -/
theorem approval_bar_lowered :
    (∃ s₀ s₁ s₂ c id siteID policy,
      AuthStart s₀ ∧ AuthRun inventorySHA256 anyCommit s₀ s₁ ∧
      AuthStep inventorySHA256 anyCommit s₁ s₂ ∧
      s₂.store.inserted = s₁.store.inserted ++ [.command c] ∧
      c.approvalRequestID = some id ∧
      s₁.tables.directory.agentSite c.agentID = some siteID ∧
      resolvePolicy s₁.tables ⟨c.agentID, siteID⟩ c.kind = some policy ∧
      ∀ operators : List String, operators.Nodup →
        (∀ operatorID ∈ operators, Approved s₁ c id siteID operatorID) →
        operators.length < policy.requiredApprovals) ∧
    ∃ (tables tables' : ApprovalTables) (extra policy policy' : ApprovalPolicy)
      (agent : AgentPlace) (kind : CommandKind) (operator : Operator),
      OneMore tables tables' extra ∧
      resolvePolicy tables agent kind = some policy ∧
      resolvePolicy tables' agent kind = some policy' ∧
      policy'.requiredApprovals < policy.requiredApprovals ∧
      activatorRefusal tables.toAuthority operator agent kind (some policy) ≠
        none ∧
      activatorRefusal tables'.toAuthority operator agent kind (some policy') =
        none := by
  constructor
  · refine ⟨blankState, strictSpending, strictDispatched,
      dispatchedCommand requester inventoryDispatch 10, "request-1", "site-1",
      generalPolicy, blankState_start, strict_run, strict_step, rfl, rfl, rfl, rfl,
      fun operators hnodup happroved => ?_⟩
    have hall : ∀ operatorID ∈ operators, operatorID = "op-2" :=
      fun operatorID hmem => strict_approver (happroved operatorID hmem)
    match operators, hnodup, hall with
    | [], _, _ => exact Nat.zero_lt_succ 1
    | [_], _, _ => exact Nat.lt_succ_self 1
    | a :: b :: _, hnodup, hall =>
        have hab : a = b := (hall a (by simp)).trans (hall b (by simp)).symm
        exact absurd (hab ▸ List.mem_cons_self) (List.nodup_cons.mp hnodup).1
  · exact ⟨strictTables, siteTables, sitePolicy, generalPolicy, sitePolicy,
      ⟨"agent-1", "site-1"⟩, .collectInventory, platformAdmin, siteTables_more,
      rfl, resolve_siteTables, by decide, by decide, by decide⟩

/-- The bar of one approval is met, although the policy asks for two by then. -/
theorem approval_bar_kept_inventory :
    (∃ sᵣ sₙ s₁ s₂ siteID r policy,
      RaisedUnder inventorySHA256 blankState sᵣ sₙ s₁ "request-1" siteID r
        policy ∧
      (r.agentID = "agent-1" ∧ r.kind = .collectInventory) ∧
      MeetsBar inventorySHA256 s₁ s₂ strictDispatched
        (dispatchedCommand requester inventoryDispatch 10) "request-1" policy) ∧
    TakesOver strictTables siteTables sitePolicy ⟨"agent-1", "site-1"⟩
      .collectInventory := by
  have hkept := @approval_bar_kept inventorySHA256
  refine ⟨hkept.1 blankState strictDispatched _ "request-1" blankState_start
    (strict_run.tail strict_step) (List.mem_append_right _ (List.mem_singleton_self _)) rfl, ?_⟩
  obtain ⟨policy', hpolicy', hlower⟩ := (hkept.2 strictTables siteTables sitePolicy
    ⟨"agent-1", "site-1"⟩ .collectInventory siteTables_more).1 generalPolicy rfl
  obtain rfl := Option.some.inj (resolve_siteTables.symm.trans hpolicy')
  exact (hlower (by decide)).2

end NodeLink.Proofs
