import Mathlib
import NodeLink.Agent.MonitoringStore
import NodeLink.Lib.Loops
import NodeLink.Proofs.MonitoringRecords

/-!
# When the monitoring outbox is wedged

A flush sends the oldest hundred results as one batch, and drops them when all
of them are acknowledged. A batch is refused for one bad element. Before each
flush the results are dropped whose check is no longer assigned by the revision
they were evaluated under, and nothing else takes an element out of the outbox.
So a check-in gets somewhere exactly when there is something to drop or the
server takes every one of the hundred: one result at the front that has grown
stale holds up everything behind it for good.
-/

namespace NodeLink.Proofs.MonitoringOutbox

open Lib Server MonitoringRecords Agent.Monitoring

/-! ## One batch -/

/-- The server takes an element: it passes the checks, and a row that is stored
under its id is the same. -/
def ElementTaken (agentID : String) (effective : List EffectiveCheck)
    (now : Int) (tables : MonitoringTables) (result : AgentCheckResultIn) :
    Prop :=
  checkElement effective now result = .ok () ∧
    ∀ existing, tables.result result.id = some existing →
      samePayload agentID existing (tables.detail result.id) result = true

/-- The server takes a batch. -/
structure BatchTaken (env : MonitoringEnv) (agentID : String) (now : Int)
    (tables : MonitoringTables) (body : List AgentCheckResultIn) : Prop where
  valid : batchValid env body = true
  active : tables.active agentID = true
  elements : ∃ agent, tables.agent agentID = some agent ∧
    ∀ r ∈ body, ElementTaken agentID (tables.effective agent) now tables r

section Submit

variable {env : MonitoringEnv} {agentID : String} {now : Int}
  {effective : List EffectiveCheck} {state state' : SubmitState}
  {result : AgentCheckResultIn} {body : List AgentCheckResultIn}

theorem rowOf_request_id (tables : MonitoringTables) :
    (rowOf env now (result.request agentID) tables).id = result.id := rfl

theorem result_eq_none {tables : MonitoringTables} {id : String} :
    tables.result id = none ↔ ∀ r ∈ tables.db.results, r.id ≠ id := by
  rw [MonitoringTables.result, List.find?_eq_none]
  exact forall₂_congr fun r _ => not_congr decide_eq_true_iff

/-- A row under another id changes nothing for an element. -/
theorem elementTaken_recorded {tables tables' : MonitoringTables} {later : Int}
    {other : AgentCheckResultIn} {detail : ResultDetail}
    (h : Recorded env now (other.request agentID) detail tables tables')
    (hne : other.id ≠ result.id) :
    ElementTaken agentID effective later tables' result ↔
      ElementTaken agentID effective later tables result := by
  have hresult : tables'.result result.id = tables.result result.id := by
    rw [MonitoringTables.result, h.results, List.find?_append,
      List.find?_cons_of_neg (by rw [rowOf_request_id]; simpa using hne),
      List.find?_nil, Option.or_none]
    rfl
  have hdetail : tables'.detail result.id = tables.detail result.id := by
    rw [MonitoringTables.detail, h.details, List.find?_append,
      List.find?_cons_of_neg (by rw [rowOf_request_id]; simpa using hne),
      List.find?_nil, Option.or_none]
    rfl
  unfold ElementTaken
  rw [hresult, hdetail]

/-- Two states of the tables with the same policies, places and trust. -/
structure SamePolicy (tables tables' : MonitoringTables) : Prop where
  rules : tables'.rules = tables.rules
  directory : tables'.db.alertDB.directory = tables.db.alertDB.directory
  active : tables'.active = tables.active

theorem SamePolicy.refl (tables : MonitoringTables) : SamePolicy tables tables :=
  ⟨rfl, rfl, rfl⟩

theorem SamePolicy.trans {t₁ t₂ t₃ : MonitoringTables} (h : SamePolicy t₁ t₂)
    (h' : SamePolicy t₂ t₃) : SamePolicy t₁ t₃ :=
  ⟨h'.rules.trans h.rules, h'.directory.trans h.directory,
    h'.active.trans h.active⟩

theorem SamePolicy.agent {tables tables' : MonitoringTables}
    (h : SamePolicy tables tables') : tables'.agent = tables.agent := by
  funext id
  simp only [MonitoringTables.agent, h.directory]

theorem SamePolicy.checks {tables tables' : MonitoringTables}
    (h : SamePolicy tables tables') (agent : AgentPlace) :
    monitoringChecks tables' agent = monitoringChecks tables agent := by
  rw [monitoringChecks, monitoringChecks, MonitoringTables.effective,
    MonitoringTables.effective, h.rules, h.directory]

/-- What an element that is taken leaves. -/
structure Taken (agentID : String) (state state' : SubmitState)
    (result : AgentCheckResultIn) : Prop where
  policy : SamePolicy state.tables state'.tables
  counted : state'.accepted + state'.duplicates =
    state.accepted + state.duplicates + 1
  kept : ∀ r ∈ state.tables.db.results, r ∈ state'.tables.db.results
  stored : ∃ r ∈ state'.tables.db.results, r.id = result.id
  others : ∀ effective now other, result.id ≠ other.id →
    (ElementTaken agentID effective now state'.tables other ↔
      ElementTaken agentID effective now state.tables other)

theorem submitElement_isOk (hvalid : result.valid env = true) {site : String}
    (hsite : state.tables.db.alertDB.directory.agentSite agentID = some site) :
    (∃ state', submitElement env agentID effective now state result =
        .ok state') ↔
      ElementTaken agentID effective now state.tables result := by
  unfold submitElement ElementTaken
  cases hcheck : checkElement effective now result with
  | error e =>
      refine iff_of_false ?_ ?_
      · intro ⟨_, h⟩
        cases h
      · intro ⟨h, _⟩
        cases h
  | ok u =>
      simp only [true_and]
      cases hexisting : state.tables.result result.id with
      | some existing =>
          simp only [Option.some.injEq, forall_eq']
          split
          · next hsame => exact iff_of_true ⟨_, rfl⟩ hsame
          · next hsame =>
              refine iff_of_false ?_ hsame
              intro ⟨_, h⟩
              cases h
      | none =>
          refine iff_of_true ?_ nofun
          simp only [AgentCheckResultIn.valid, Bool.and_eq_true] at hvalid
          obtain ⟨tables', hrecord⟩ : ∃ tables', state.tables.record env now
              (result.request agentID) result.detail = .ok tables' :=
            record_isOk hvalid.1.1.2 hvalid.2 (result_eq_none.mp hexisting) hsite
          simp only [hrecord]
          exact ⟨_, rfl⟩

theorem taken_of_submitElement
    (h : submitElement env agentID effective now state result = .ok state') :
    Taken agentID state state' result := by
  unfold submitElement at h
  split at h
  · cases h
  · split at h
    · next existing hexisting =>
        split at h
        · cases h
          refine ⟨.refl _, rfl, fun r hr => hr, ?_, fun _ _ _ _ => Iff.rfl⟩
          have hid := List.find?_some hexisting
          exact ⟨existing, List.mem_of_find?_eq_some hexisting,
            of_decide_eq_true hid⟩
        · cases h
    · split at h
      · cases h
      · next tables' hrecord =>
          cases h
          have hrecorded := recorded hrecord
          refine ⟨?_, ?_, ?_, ?_, ?_⟩
          · exact ⟨hrecorded.rules, hrecorded.directory, hrecorded.active⟩
          · show state.accepted + 1 + state.duplicates = _
            omega
          · intro r hr
            rw [hrecorded.results]
            exact List.mem_append_left _ hr
          · refine ⟨rowOf env now (result.request agentID) state.tables, ?_, rfl⟩
            rw [hrecorded.results]
            exact List.mem_append_right _ List.mem_cons_self
          · exact fun _ _ _ hne => elementTaken_recorded hrecorded hne

theorem agentSite_of_agent {tables : MonitoringTables} {agent : AgentPlace}
    (h : tables.agent agentID = some agent) :
    ∃ site, tables.db.alertDB.directory.agentSite agentID = some site := by
  obtain ⟨site, hsite, _⟩ := Option.map_eq_some_iff.mp h
  exact ⟨site, hsite⟩

/-- A batch gets through when each element would, by itself. -/
theorem foldlM_submitElement_isOk {agent : AgentPlace}
    (hagent : state.tables.agent agentID = some agent)
    (hvalid : ∀ r ∈ body, r.valid env = true)
    (hids : (body.map (·.id)).Nodup) :
    (∃ state', body.foldlM (submitElement env agentID effective now) state =
        .ok state') ↔
      ∀ r ∈ body, ElementTaken agentID effective now state.tables r := by
  induction body generalizing state with
  | nil =>
      exact iff_of_true ⟨state, foldlM_nil_eq_ok.mpr rfl⟩
        fun _ h => absurd h List.not_mem_nil
  | cons r rest ih =>
      obtain ⟨site, hsite⟩ := agentSite_of_agent hagent
      rw [List.map_cons, List.nodup_cons] at hids
      have hfirst : (∃ state', submitElement env agentID effective now state r =
          .ok state') ↔ ElementTaken agentID effective now state.tables r :=
        submitElement_isOk (hvalid r List.mem_cons_self) hsite
      have hrest : ∀ state', submitElement env agentID effective now state r =
          .ok state' →
          ((∃ final, rest.foldlM (submitElement env agentID effective now)
              state' = .ok final) ↔
            ∀ q ∈ rest, ElementTaken agentID effective now state.tables q) := by
        intro state' hstep
        have htaken := taken_of_submitElement hstep
        refine (ih (by rw [htaken.policy.agent]; exact hagent)
          (fun q hq => hvalid q (List.mem_cons_of_mem _ hq)) hids.2).trans ?_
        refine forall₂_congr fun q hq => htaken.others effective now q ?_
        intro heq
        exact hids.1 (List.mem_map.mpr ⟨q, hq, heq.symm⟩)
      rw [List.forall_mem_cons, ← hfirst]
      constructor
      · intro ⟨final, hfinal⟩
        obtain ⟨state', hstep, hloop⟩ := foldlM_cons_eq_ok.mp hfinal
        exact ⟨⟨state', hstep⟩, (hrest state' hstep).mp ⟨final, hloop⟩⟩
      · intro ⟨⟨state', hstep⟩, hall⟩
        obtain ⟨final, hloop⟩ := (hrest state' hstep).mpr hall
        exact ⟨final, foldlM_cons_eq_ok.mpr ⟨state', hstep, hloop⟩⟩

/-- All of a batch is acknowledged, and stored. -/
theorem foldlM_submitElement_stores
    (h : body.foldlM (submitElement env agentID effective now) state =
      .ok state') :
    SamePolicy state.tables state'.tables ∧
      state'.accepted + state'.duplicates =
        state.accepted + state.duplicates + body.length ∧
      (∀ r ∈ state.tables.db.results, r ∈ state'.tables.db.results) ∧
      ∀ r ∈ body, ∃ row ∈ state'.tables.db.results, row.id = r.id := by
  induction body generalizing state with
  | nil =>
      rw [← foldlM_nil_eq_ok.mp h]
      exact ⟨.refl _, rfl, fun r hr => hr,
        fun _ hr => absurd hr List.not_mem_nil⟩
  | cons r rest ih =>
      obtain ⟨mid, hstep, hloop⟩ := foldlM_cons_eq_ok.mp h
      have htaken := taken_of_submitElement hstep
      obtain ⟨hpolicy, hcount, hkept, hstored⟩ := ih hloop
      refine ⟨htaken.policy.trans hpolicy, ?_,
        fun q hq => hkept q (htaken.kept q hq), ?_⟩
      · rw [hcount, htaken.counted, List.length_cons]
        omega
      · intro q hq
        rcases List.mem_cons.mp hq with rfl | hq
        · obtain ⟨row, hrow, hid⟩ := htaken.stored
          exact ⟨row, hkept row hrow, hid⟩
        · exact hstored q hq

theorem submitMonitoringResults_isOk {tables : MonitoringTables} :
    (∃ state', submitMonitoringResults env agentID body now tables =
        .ok state') ↔ BatchTaken env agentID now tables body := by
  constructor
  · intro ⟨state', h⟩
    unfold submitMonitoringResults at h
    split at h
    · cases h
    · next agent hagent =>
        split at h
        · cases h
        · next hvalid =>
            split at h
            · cases h
            · next hactive =>
                rw [not_not] at hvalid hactive
                have hbatch := hvalid
                simp only [batchValid, Bool.and_eq_true, List.all_eq_true,
                  decide_eq_true_eq] at hbatch
                exact ⟨hvalid, hactive, agent, hagent,
                  (foldlM_submitElement_isOk hagent hbatch.1.2 hbatch.2).mp
                    ⟨state', h⟩⟩
  · intro ⟨hvalid, hactive, agent, hagent, helements⟩
    have hbatch := hvalid
    simp only [batchValid, Bool.and_eq_true, List.all_eq_true,
      decide_eq_true_eq] at hbatch
    simp only [submitMonitoringResults, hagent, hvalid, hactive,
      not_true_eq_false, if_false]
    exact (foldlM_submitElement_isOk hagent hbatch.1.2 hbatch.2).mpr helements

end Submit

/-! ## From the agent to the server -/

def readStatus : String → Option CheckResultStatus
  | "ok" => some .ok
  | "warning" => some .warning
  | "critical" => some .critical
  | "unknown" => some .unknown
  | _ => none

/-- A number as it arrives: one that is not finite cannot be sent, and the
negative zero is read as an integer. -/
def wireValue : Option Double → Option (Option Double)
  | none => some none
  | some x =>
    if x.isFinite then some (some (if x.same 0 then 0 else x)) else none

/-- A result as the server parses it, where both sides get that far. -/
def onWire (r : Result) : Option AgentCheckResultIn :=
  match readStatus r.status, wireValue r.value with
  | some status, some value =>
    some
      { id := r.id, policyID := r.policyID, policyRevisionID := r.policyRevisionID
        checkKey := r.checkKey, status, value, detail := r.detail
        evaluatedAt := r.evaluatedAt }
  | _, _ => none

/-- A request that is answered at `now`: how many results the answer
acknowledges, if it does. -/
def post (env : MonitoringEnv) (agentID : String) (now : Int)
    (batch : List Result) (tables : MonitoringTables) :
    Option (Nat × MonitoringTables) :=
  match batch.mapM onWire with
  | none => none
  | some body =>
    match submitMonitoringResults env agentID body now tables with
    | .error _ => none
    | .ok state => some (state.accepted + state.duplicates, state.tables)

/-- A flush whose request `k` is answered at `times k`. -/
def flush (env : MonitoringEnv) (agentID : String) (times : Nat → Int)
    (k : Nat) (pending : List Result) (tables : MonitoringTables) :
    Flushed MonitoringTables :=
  flushMonitoringResults (fun k => post env agentID (times k)) k pending tables

/-- The server takes the batch at the front of the outbox. -/
def FrontTaken (env : MonitoringEnv) (agentID : String) (now : Int)
    (tables : MonitoringTables) (pending : List Result) : Prop :=
  ∃ body, (pendingBatch 100 pending).mapM onWire = some body ∧
    BatchTaken env agentID now tables body

section Flush

variable {env : MonitoringEnv} {agentID : String} {now : Int}
  {times : Nat → Int} {k : Nat} {tables tables' : MonitoringTables}
  {pending : List Result} {batch : List Result}

/-- The row of a result is in the table. -/
def Stored (tables : MonitoringTables) (r : Result) : Prop :=
  ∃ row ∈ tables.db.results, row.id = r.id

theorem onWire_id {r : Result} {result : AgentCheckResultIn}
    (h : onWire r = some result) : result.id = r.id := by
  unfold onWire at h
  split at h
  · rw [← Option.some.inj h]
  · cases h

theorem mapM_onWire_mem {body : List AgentCheckResultIn}
    (h : batch.mapM onWire = some body) :
    ∀ r ∈ batch, ∃ result ∈ body, onWire r = some result := by
  induction batch generalizing body with
  | nil => exact fun _ hr => absurd hr List.not_mem_nil
  | cons r rest ih =>
      rw [List.mapM_cons] at h
      obtain ⟨result, hresult, h⟩ := Option.bind_eq_some_iff.mp h
      obtain ⟨results, hresults, h⟩ := Option.bind_eq_some_iff.mp h
      rw [← Option.some.inj h]
      intro q hq
      rcases List.mem_cons.mp hq with rfl | hq
      · exact ⟨result, List.mem_cons_self, hresult⟩
      · obtain ⟨found, hfound, hwire⟩ := ih hresults q hq
        exact ⟨found, List.mem_cons_of_mem _ hfound, hwire⟩

theorem length_mapM_onWire {body : List AgentCheckResultIn}
    (h : batch.mapM onWire = some body) : body.length = batch.length := by
  induction batch generalizing body with
  | nil =>
      rw [List.mapM_nil] at h
      rw [← Option.some.inj h]
      rfl
  | cons r rest ih =>
      rw [List.mapM_cons] at h
      obtain ⟨result, _, h⟩ := Option.bind_eq_some_iff.mp h
      obtain ⟨results, hresults, h⟩ := Option.bind_eq_some_iff.mp h
      rw [← Option.some.inj h, List.length_cons, List.length_cons, ih hresults]

theorem post_isSome :
    (∃ answer, post env agentID now (pendingBatch 100 pending) tables =
      some answer) ↔ FrontTaken env agentID now tables pending := by
  unfold post FrontTaken
  cases hbody : (pendingBatch 100 pending).mapM onWire with
  | none =>
      refine iff_of_false ?_ ?_
      · intro ⟨_, h⟩
        cases h
      · intro ⟨_, h, _⟩
        cases h
  | some body =>
      simp only [Option.some.injEq, exists_eq_left', ← submitMonitoringResults_isOk]
      split
      · next e hsubmit =>
          refine iff_of_false ?_ ?_
          · intro ⟨_, h⟩
            cases h
          · intro ⟨_, h⟩
            rw [hsubmit] at h
            cases h
      · next state hsubmit => exact iff_of_true ⟨_, rfl⟩ ⟨state, hsubmit⟩

theorem post_eq_some {count : Nat}
    (h : post env agentID now batch tables = some (count, tables')) :
    SamePolicy tables tables' ∧ count = batch.length ∧
      (∀ row ∈ tables.db.results, row ∈ tables'.db.results) ∧
      ∀ r ∈ batch, Stored tables' r := by
  unfold post at h
  split at h
  · cases h
  · next body hbody =>
      split at h
      · cases h
      · next state hsubmit =>
          obtain ⟨rfl, rfl⟩ := Prod.mk.inj (Option.some.inj h)
          have hlength : body.length = batch.length := length_mapM_onWire hbody
          unfold submitMonitoringResults at hsubmit
          split at hsubmit
          · cases hsubmit
          · split at hsubmit
            · cases hsubmit
            · split at hsubmit
              · cases hsubmit
              · obtain ⟨hpolicy, hcount, hkept, hstored⟩ :=
                  foldlM_submitElement_stores hsubmit
                refine ⟨hpolicy, by rw [hcount, hlength]; simp, hkept, ?_⟩
                intro r hr
                obtain ⟨result, hresult, hwire⟩ := mapM_onWire_mem hbody r hr
                obtain ⟨row, hrow, hid⟩ := hstored result hresult
                exact ⟨row, hrow, hid.trans (onWire_id hwire)⟩

/-- One request of a flush. -/
theorem flush_cons {r : Result} {rest : List Result} :
    (¬ FrontTaken env agentID (times k) tables (r :: rest) ∧
      flush env agentID times k (r :: rest) tables =
        ⟨tables, r :: rest, some .request⟩) ∨
    (FrontTaken env agentID (times k) tables (r :: rest) ∧
      ∃ tables', flush env agentID times k (r :: rest) tables =
          flush env agentID times (k + 1)
            (acknowledgePrefix (pendingBatch 100 (r :: rest)).length
              (r :: rest)) tables' ∧
        SamePolicy tables tables' ∧
        (∀ row ∈ tables.db.results, row ∈ tables'.db.results) ∧
        ∀ q ∈ pendingBatch 100 (r :: rest), Stored tables' q) := by
  cases hpost : post env agentID (times k) (pendingBatch 100 (r :: rest))
      tables with
  | none =>
      refine .inl ⟨?_, ?_⟩
      · rw [← post_isSome, hpost]
        intro ⟨_, h⟩
        cases h
      · rw [flush, flushMonitoringResults.eq_def]
        simp only [hpost]
  | some answer =>
      obtain ⟨count, tables'⟩ := answer
      obtain ⟨hpolicy, hcount, hkept, hstored⟩ := post_eq_some hpost
      refine .inr ⟨post_isSome.mp ⟨_, hpost⟩, tables', ?_, hpolicy, hkept,
        hstored⟩
      rw [flush, flushMonitoringResults.eq_def]
      simp only [hpost, hcount, ne_eq, not_true_eq_false, if_false]
      rfl

theorem length_acknowledgePrefix {r : Result} {rest : List Result} :
    (acknowledgePrefix (pendingBatch 100 (r :: rest)).length
      (r :: rest)).length < (r :: rest).length := by
  simp only [acknowledgePrefix, pendingBatch, List.length_drop,
    List.length_take, List.length_cons]
  omega

/-- What a flush leaves: nothing is lost, what it drops is stored. -/
structure Flushes (tables : MonitoringTables) (pending : List Result)
    (f : Flushed MonitoringTables) : Prop where
  policy : SamePolicy tables f.server
  length : f.pending.length ≤ pending.length
  kept : ∀ row ∈ tables.db.results, row ∈ f.server.db.results
  stored : ∀ r ∈ pending, r ∈ f.pending ∨ Stored f.server r

theorem flushes (n : Nat) : ∀ k pending tables, pending.length ≤ n →
    Flushes tables pending (flush env agentID times k pending tables) := by
  induction n with
  | zero =>
      intro k pending tables hn
      rw [List.length_eq_zero_iff.mp (Nat.le_zero.mp hn), flush,
        flushMonitoringResults.eq_def]
      exact ⟨.refl _, le_refl _, fun _ h => h, fun _ h => .inl h⟩
  | succ n ih =>
      intro k pending tables hn
      cases pending with
      | nil =>
          rw [flush, flushMonitoringResults.eq_def]
          exact ⟨.refl _, le_refl _, fun _ h => h, fun _ h => .inl h⟩
      | cons r rest =>
          rcases @flush_cons env agentID times k tables r rest with
            ⟨_, hstuck⟩ | ⟨_, tables', hflush, hpolicy, hkept, hstored⟩
          · rw [hstuck]
            exact ⟨.refl _, le_refl _, fun _ h => h, fun _ h => .inl h⟩
          · have hlt : (acknowledgePrefix (pendingBatch 100 (r :: rest)).length
                (r :: rest)).length < (r :: rest).length :=
              length_acknowledgePrefix
            have hnext := ih (k + 1) _ tables' (Nat.le_of_lt_succ
              (Nat.lt_of_lt_of_le hlt hn))
            rw [hflush]
            refine ⟨hpolicy.trans hnext.policy,
              le_trans hnext.length (le_of_lt hlt),
              fun row hrow => hnext.kept row (hkept row hrow), ?_⟩
            intro q hq
            rw [← List.take_append_drop (pendingBatch 100 (r :: rest)).length
              (r :: rest)] at hq
            rcases List.mem_append.mp hq with hfront | hback
            · have hbatch : q ∈ pendingBatch 100 (r :: rest) := by
                rw [pendingBatch, List.length_take, List.take_eq_take_min,
                  Nat.min_assoc, Nat.min_self] at hfront
                rw [pendingBatch, List.take_eq_take_min]
                exact hfront
              obtain ⟨row, hrow, hid⟩ := hstored q hbatch
              exact .inr ⟨row, hnext.kept row hrow, hid⟩
            · exact hnext.stored q hback

/-- A flush gets somewhere just when the front is taken. -/
theorem flush_shrinks_iff (hne : pending ≠ []) :
    (flush env agentID times 0 pending tables).pending.length <
        pending.length ↔ FrontTaken env agentID (times 0) tables pending := by
  cases pending with
  | nil => exact absurd rfl hne
  | cons r rest =>
      rcases @flush_cons env agentID times 0 tables r rest with
        ⟨hfront, hstuck⟩ | ⟨hfront, tables', hflush, _⟩
      · rw [hstuck]
        exact iff_of_false (lt_irrefl _) hfront
      · rw [hflush]
        refine iff_of_true ?_ hfront
        exact lt_of_le_of_lt (flushes _ _ _ tables' (le_refl _)).length
          length_acknowledgePrefix

end Flush

/-! ## Check-in after check-in -/

/-- The server's tables and the outbox. -/
abbrev Sides := MonitoringTables × List Result

/-- An assignment as the agent reads it. -/
def assignmentOnWire (a : AgentCheckAssignment) :
    Agent.Monitoring.Assignment :=
  ⟨a.definition.key, a.definition.enabled, a.policyID, a.policyRevisionID⟩

/-- The assignments in the answer to a heartbeat. -/
def assignments (tables : MonitoringTables) (agent : AgentPlace) :
    List Agent.Monitoring.Assignment :=
  (monitoringChecks tables agent).map assignmentOnWire

/-- One flush of both sides. -/
def flushOnce (env : MonitoringEnv) (agentID : String) (times : Nat → Int)
    (s : Sides) : Sides :=
  ((flush env agentID times 0 s.2 s.1).server,
    (flush env agentID times 0 s.2 s.1).pending)

/-- The part of `checkIn` that concerns the outbox, where no check is due: an
agent that is not trusted, or not known, gets no further than the heartbeat. -/
def checkIn (env : MonitoringEnv) (agentID : String) (times : Nat → Int)
    (s : Sides) : Sides :=
  match s.1.agent agentID with
  | none => s
  | some agent =>
    if s.1.active agentID then
      flushOnce env agentID times (s.1, keepAssigned (assignments s.1 agent) s.2)
    else s

/-- Request `k` of the flush of check-in `i` is answered at `times i k`; nothing
else changes the tables, the policies least of all. -/
def afterCheckIns (env : MonitoringEnv) (agentID : String)
    (times : Nat → Nat → Int) (s : Sides) : Nat → Sides
  | 0 => s
  | n + 1 => checkIn env agentID (times n) (afterCheckIns env agentID times s n)

/-- The result's check is assigned to the agent, by the revision the result was
evaluated under. -/
def Current (tables : MonitoringTables) (agentID : String) (r : Result) : Prop :=
  ∃ agent, tables.agent agentID = some agent ∧
    r.assigned (assignments tables agent) = true

/-- Every check-in shrinks the outbox until it is empty, and everything in it
that is current is delivered. -/
structure NeverWedged (agentID : String) (run : Nat → Sides) : Prop where
  shrinks : ∀ i, (run i).2 ≠ [] → (run (i + 1)).2.length < (run i).2.length
  empties : ∃ n, (run n).2 = []
  delivers : ∀ r ∈ (run 0).2, Current (run 0).1 agentID r →
    ∃ n, Stored (run n).1 r

/-- The agent is trusted, and its outbox has a result to drop or a front that
the server takes. -/
structure Progresses (env : MonitoringEnv) (agentID : String) (now : Int)
    (s : Sides) : Prop where
  active : s.1.active agentID = true
  moves : ∃ agent, s.1.agent agentID = some agent ∧
    ((∃ r ∈ s.2, ¬ Current s.1 agentID r) ∨ FrontTaken env agentID now s.1 s.2)

theorem empties_of_shrinks {run : Nat → Sides}
    (h : ∀ i, (run i).2 ≠ [] → (run (i + 1)).2.length < (run i).2.length) :
    ∃ n, (run n).2 = [] := by
  by_contra hnever
  rw [not_exists] at hnever
  have hbound : ∀ n, (run n).2.length + n ≤ (run 0).2.length := by
    intro n
    induction n with
    | zero => exact le_refl _
    | succ n ih =>
        have hlt := h n (hnever n)
        omega
  have hlast := hbound ((run 0).2.length + 1)
  omega

section Run

variable {env : MonitoringEnv} {agentID : String}

theorem SamePolicy.current {tables tables' : MonitoringTables} {r : Result}
    (h : SamePolicy tables tables') :
    Current tables' agentID r ↔ Current tables agentID r := by
  unfold Current assignments
  rw [h.agent]
  exact exists_congr fun agent => and_congr_right fun _ => by rw [h.checks]

theorem current_iff {tables : MonitoringTables} {agent : AgentPlace}
    (hagent : tables.agent agentID = some agent) {r : Result} :
    Current tables agentID r ↔
      r.assigned (assignments tables agent) = true := by
  constructor
  · intro ⟨found, hfound, hassigned⟩
    obtain rfl := Option.some.inj (hagent.symm.trans hfound)
    exact hassigned
  · exact fun h => ⟨agent, hagent, h⟩

/-- What a check-in leaves: nothing current is lost. -/
structure ChecksIn (agentID : String) (s s' : Sides) : Prop where
  policy : SamePolicy s.1 s'.1
  kept : ∀ row ∈ s.1.db.results, row ∈ s'.1.db.results
  stored : ∀ r ∈ s.2, Current s.1 agentID r → r ∈ s'.2 ∨ Stored s'.1 r

theorem checksIn_checkIn (times : Nat → Int) (s : Sides) :
    ChecksIn agentID s (checkIn env agentID times s) := by
  have hstill : ChecksIn agentID s s :=
    ⟨.refl _, fun _ h => h, fun _ h _ => .inl h⟩
  cases hagent : s.1.agent agentID with
  | none =>
      simp only [checkIn, hagent]
      exact hstill
  | some agent =>
      simp only [checkIn, hagent]
      split
      · have hflush : Flushes s.1 (keepAssigned (assignments s.1 agent) s.2)
            (flush env agentID times 0 (keepAssigned (assignments s.1 agent) s.2)
              s.1) := flushes _ 0 _ _ (le_refl _)
        refine ⟨hflush.policy, hflush.kept, fun r hr hcurrent => ?_⟩
        exact hflush.stored r
          (List.mem_filter.mpr ⟨hr, (current_iff hagent).mp hcurrent⟩)
      · exact hstill

/-- A check-in gets somewhere just when it has something to drop or its front
is taken. -/
theorem checkIn_shrinks_iff {times : Nat → Int} {s : Sides} (hne : s.2 ≠ []) :
    (checkIn env agentID times s).2.length < s.2.length ↔
      Progresses env agentID (times 0) s := by
  cases hagent : s.1.agent agentID with
  | none =>
      simp only [checkIn, hagent]
      refine iff_of_false (lt_irrefl _) fun h => ?_
      obtain ⟨agent, hfound, -⟩ := h.moves
      rw [hagent] at hfound
      cases hfound
  | some agent =>
      by_cases hactive : s.1.active agentID = true
      · simp only [checkIn, hagent, if_pos hactive]
        by_cases hall : ∀ r ∈ s.2, r.assigned (assignments s.1 agent) = true
        · -- nothing is dropped, so it is the flush that has to shrink the outbox
          have hkeep : keepAssigned (assignments s.1 agent) s.2 = s.2 :=
            List.filter_eq_self.mpr hall
          rw [hkeep]
          refine (flush_shrinks_iff hne).trans ⟨fun hfront => ?_, fun h => ?_⟩
          · exact ⟨hactive, agent, hagent, .inr hfront⟩
          · obtain ⟨_, -, ⟨r, hr, hstale⟩ | hfront⟩ := h.moves
            · exact absurd ((current_iff hagent).mpr (hall r hr)) hstale
            · exact hfront
        · rw [not_forall] at hall
          obtain ⟨r, hr⟩ := hall
          rw [Classical.not_imp] at hr
          refine iff_of_true ?_ ⟨hactive, agent, hagent, .inl ⟨r, hr.1, ?_⟩⟩
          · refine lt_of_le_of_lt (flushes _ 0 _ s.1 (le_refl _)).length ?_
            exact List.length_filter_lt_length_iff_exists.mpr ⟨r, hr.1, hr.2⟩
          · exact fun hcurrent => hr.2 ((current_iff hagent).mp hcurrent)
      · simp only [checkIn, hagent, if_neg hactive]
        exact iff_of_false (lt_irrefl _) fun h => hactive h.active

/-- What is current and has left the outbox is stored. -/
theorem stored_or_pending {times : Nat → Nat → Int} {s : Sides} (n : Nat) :
    SamePolicy s.1 (afterCheckIns env agentID times s n).1 ∧
      ∀ r ∈ s.2, Current s.1 agentID r →
        r ∈ (afterCheckIns env agentID times s n).2 ∨
          Stored (afterCheckIns env agentID times s n).1 r := by
  induction n with
  | zero => exact ⟨.refl _, fun r hr _ => .inl hr⟩
  | succ n ih =>
      obtain ⟨hpolicy, hwhere⟩ := ih
      have hstep : ChecksIn agentID (afterCheckIns env agentID times s n)
          (checkIn env agentID (times n)
            (afterCheckIns env agentID times s n)) := checksIn_checkIn _ _
      refine ⟨hpolicy.trans hstep.policy, fun r hr hcurrent => ?_⟩
      rcases hwhere r hr hcurrent with hpending | ⟨row, hrow, hid⟩
      · exact hstep.stored r hpending (hpolicy.current.mpr hcurrent)
      · exact .inr ⟨row, hstep.kept row hrow, hid⟩

end Run

/-- The outbox drains exactly when every check-in that finds something in it
drops a result, or the server takes every result of the batch at the front. -/
theorem outbox_never_wedged_iff (env : MonitoringEnv) (agentID : String)
    (times : Nat → Nat → Int) (tables : MonitoringTables)
    (pending : List Result) :
    NeverWedged agentID (afterCheckIns env agentID times (tables, pending)) ↔
      ∀ i, (afterCheckIns env agentID times (tables, pending) i).2 ≠ [] →
        Progresses env agentID (times i 0)
          (afterCheckIns env agentID times (tables, pending) i) := by
  constructor
  · intro h i hne
    exact (checkIn_shrinks_iff hne).mp (h.shrinks i hne)
  · intro h
    have hshrinks : ∀ i, (afterCheckIns env agentID times (tables, pending)
        i).2 ≠ [] → (afterCheckIns env agentID times (tables, pending)
          (i + 1)).2.length <
            (afterCheckIns env agentID times (tables, pending) i).2.length :=
      fun i hne => (checkIn_shrinks_iff hne).mpr (h i hne)
    obtain ⟨n, hn⟩ := empties_of_shrinks hshrinks
    refine ⟨hshrinks, ⟨n, hn⟩, fun r hr hcurrent => ?_⟩
    have hwhere : r ∈ (afterCheckIns env agentID times (tables, pending) n).2 ∨
        Stored (afterCheckIns env agentID times (tables, pending) n).1 r :=
      (stored_or_pending n).2 r hr hcurrent
    rw [hn] at hwhere
    exact ⟨n, hwhere.resolve_left List.not_mem_nil⟩

/-! ## A result that has grown stale -/

theorem checkElement_stale {effective : List EffectiveCheck} {now : Int}
    {result : AgentCheckResultIn} {item : EffectiveCheck}
    (hitem : assignmentOf effective result = some item)
    (hstale : result.evaluatedAt < now - maxResultAge item.definition) :
    checkElement effective now result ≠ .ok () := by
  unfold checkElement
  rw [hitem]
  simp only [if_pos hstale]
  split
  · nofun
  · split
    · nofun
    · nofun

section Stale

variable {env : MonitoringEnv} {agentID : String} {now : Int}
  {tables : MonitoringTables} {pending : List Result}

/-- One stale result among the first hundred stops every later check-in. -/
theorem afterCheckIns_stale {agent : AgentPlace} {r : Result}
    {result : AgentCheckResultIn} {item : EffectiveCheck}
    (hagent : tables.agent agentID = some agent)
    (hcurrent : keepAssigned (assignments tables agent) pending = pending)
    (hr : r ∈ pendingBatch 100 pending) (hresult : onWire r = some result)
    (hitem : assignmentOf (tables.effective agent) result = some item)
    (hstale : result.evaluatedAt < now - maxResultAge item.definition)
    {times : Nat → Nat → Int} (htimes : ∀ i k, now ≤ times i k) (n : Nat) :
    afterCheckIns env agentID times (tables, pending) n = (tables, pending) := by
  have hrefused : ∀ i, ¬ FrontTaken env agentID (times i 0) tables pending := by
    intro i ⟨body, hbody, htaken⟩
    obtain ⟨place, hplace, helements⟩ := htaken.elements
    rw [hagent] at hplace
    cases hplace
    obtain ⟨found, hfound, hwire⟩ := mapM_onWire_mem hbody r hr
    rw [hresult] at hwire
    cases hwire
    refine checkElement_stale hitem ?_ (helements result hfound).1
    have := htimes i 0
    omega
  induction n with
  | zero => rfl
  | succ n ih =>
      rw [afterCheckIns, ih]
      simp only [checkIn, hagent]
      split
      · rw [hcurrent, flushOnce]
        cases pending with
        | nil => cases hr
        | cons q rest =>
            rcases @flush_cons env agentID (times n) 0 tables q rest with
              ⟨_, hstuck⟩ | ⟨hfront, _⟩
            · rw [hstuck]
            · exact absurd hfront (hrefused n)
      · rfl

end Stale

/-- Ids of growing length. -/
def longerID (used : List String) : String :=
  String.ofList (List.replicate ((used.map String.length).sum + 1) 'x')

def longerIDs : UuidSource where
  draw := longerID
  fresh := by
    intro used hmem
    have hle := List.single_le_sum (fun n _ => Nat.zero_le n) _
      (List.mem_map_of_mem (f := String.length) hmem)
    rw [longerID, String.length_ofList, List.length_replicate] at hle
    omega

def sampleEnv : MonitoringEnv where
  zones := fun _ => none
  uuids := longerIDs
  detailFits := fun _ => true

theorem cpuKey_ok : checkKeyPattern "cpu" = true := by decide

theorem everyMinute_ok : 30 ≤ 60 ∧ 60 ≤ 86400 := by decide

theorem hundred_ne_none :
    some (Threshold.mk .gt none (some hundredDouble)) ≠ none := by
  intro h
  cases h

theorem cpu_patchAge (h : CheckType.cpu = .patchAge) : 3600 ≤ 60 := by
  cases h

/-- A check on the processor, every minute. -/
def cpuCheck : CheckDefinition where
  key := "cpu"
  type := .cpu
  intervalSeconds := 60
  threshold := some { op := .gt, warning := none, critical := some hundredDouble }
  key_ok := cpuKey_ok
  interval_ok := everyMinute_ok
  threshold_ok := hundred_ne_none
  patchAge_ok := cpu_patchAge

/-- One endpoint, with the check assigned to every endpoint. -/
def sampleTables : MonitoringTables where
  rules :=
    { policies := [⟨"p", "default", .global, none, true, 0⟩]
      revisions := [⟨"v", "p", 1, [cpuCheck]⟩] }
  db := ⟨⟨⟨fun _ => some "site", fun _ => none⟩, [], [], [], []⟩, []⟩
  active := fun _ => true
  lastSeen := fun _ => none

def sampleResult (id : String) (evaluatedAt : Int) : Result where
  id
  policyID := "p"
  policyRevisionID := "v"
  checkKey := "cpu"
  status := "ok"
  value := some zeroDouble
  detail := none
  evaluatedAt

/-- Evaluated before the endpoint went offline for an hour, and just now. -/
def sampleOutbox : List Result :=
  [sampleResult "00000000000000000000000000000001" 0,
    sampleResult "00000000000000000000000000000002" (3600 * 1000000)]

/-- The first of them as it arrives. -/
def sampleElement : AgentCheckResultIn where
  id := "00000000000000000000000000000001"
  policyID := "p"
  policyRevisionID := "v"
  checkKey := "cpu"
  status := .ok
  value := some 0
  detail := none
  evaluatedAt := 0

/-- The revision they were evaluated under is still the one in force. -/
theorem sampleOutbox_assigned :
    keepAssigned (assignments sampleTables ⟨"a", "site"⟩) sampleOutbox =
      sampleOutbox := by
  rfl

/-- The result of an hour ago is refused from now on, and the one behind it is
never delivered. -/
theorem stale_result_wedges :
    (∀ times : Nat → Nat → Int, (∀ i k, 3600 * 1000000 ≤ times i k) →
      ∀ n, afterCheckIns sampleEnv "a" times (sampleTables, sampleOutbox) n =
        (sampleTables, sampleOutbox)) ∧
    ¬ ∀ times : Nat → Nat → Int,
      NeverWedged "a" (afterCheckIns sampleEnv "a" times
        (sampleTables, sampleOutbox)) := by
  have hitem : ∃ item, assignmentOf
      (sampleTables.effective ⟨"a", "site"⟩) sampleElement = some item ∧
        sampleElement.evaluatedAt < 3600 * 1000000 - maxResultAge item.definition := by
    have hage : (assignmentOf (sampleTables.effective ⟨"a", "site"⟩)
        sampleElement).map (fun item => maxResultAge item.definition) =
          some (300 * 1000000) := by decide +kernel
    obtain ⟨item, hitem, hmax⟩ := Option.map_eq_some_iff.mp hage
    refine ⟨item, hitem, ?_⟩
    rw [hmax]
    decide
  obtain ⟨item, hitem, hstale⟩ := hitem
  have hstuck : ∀ times : Nat → Nat → Int,
      (∀ i k, 3600 * 1000000 ≤ times i k) → ∀ n,
        afterCheckIns sampleEnv "a" times (sampleTables, sampleOutbox) n =
          (sampleTables, sampleOutbox) :=
    fun times htimes n => afterCheckIns_stale rfl sampleOutbox_assigned List.mem_cons_self
      (by rfl) hitem hstale htimes n
  refine ⟨hstuck, ?_⟩
  intro hall
  have hshrinks := (hall fun _ _ => 3600 * 1000000).shrinks 0 nofun
  rw [hstuck _ (fun _ _ => le_refl _), hstuck _ (fun _ _ => le_refl _)]
    at hshrinks
  exact lt_irrefl _ hshrinks

end NodeLink.Proofs.MonitoringOutbox
