import Mathlib
import NodeLink.Proofs.MonitoringOutbox
import NodeLink.Server.MonitoringEvaluators

/-!
# Who creates the rows of server-owned checks

A row of check results has its type by the revision and the key it names. The
endpoint agents submit to refuses one of the two types that are the server's
own, so a submission that names a patch age check is stored like any other, and
opens an alert where the server's evaluator would not. As long as none that is
taken does so, every row of either type is the server's, and no patch age that
is unknown opens an alert.
-/

namespace NodeLink.Proofs.ServerOwnedChecks

open Lib Server MonitoringRecords MonitoringOutbox AlertBook

/-! ## The type of a row -/

/-- Ids of revisions are keys of their table, and a revision is validated when
it is added: the keys of its checks are distinct. -/
structure RulesSound (rules : PolicyTables) : Prop where
  ids : (rules.revisions.map (·.id)).Nodup
  keys : ∀ revision ∈ rules.revisions, (revision.checks.map (·.key)).Nodup

/-- The revision and the key of a row name a check of this type. -/
def IsOfType (rules : PolicyTables) (r : CheckResult) (type : CheckType) :
    Prop :=
  ∃ revision ∈ rules.revisions, r.policyRevisionID = some revision.id ∧
    ∃ d ∈ revision.checks, d.key = r.checkKey ∧ d.type = type

theorem RulesSound.revision_ext {rules : PolicyTables} (h : RulesSound rules)
    {v v' : MonitoringPolicyRevision} (hv : v ∈ rules.revisions)
    (hv' : v' ∈ rules.revisions) (hid : v.id = v'.id) : v = v' :=
  List.inj_on_of_nodup_map h.ids hv hv' hid

/-- A row has one type. -/
theorem isOfType_unique {rules : PolicyTables} (h : RulesSound rules)
    {r : CheckResult} {type type' : CheckType} (htype : IsOfType rules r type)
    (htype' : IsOfType rules r type') : type = type' := by
  obtain ⟨v, hv, hid, d, hd, hkey, hdtype⟩ := htype
  obtain ⟨v', hv', hid', d', hd', hkey', hdtype'⟩ := htype'
  have hsame : v = v' :=
    h.revision_ext hv hv' (Option.some.inj (hid.symm.trans hid'))
  subst hsame
  have hcheck : d = d' :=
    List.inj_on_of_nodup_map (h.keys v hv) hd hd' (hkey.trans hkey'.symm)
  rw [← hdtype, ← hdtype', hcheck]

/-- An effective check comes from a revision. -/
def FromRules (rules : PolicyTables) (item : EffectiveCheck) : Prop :=
  ∃ revision ∈ rules.revisions, revision.id = item.sourceRevisionID ∧
    item.definition ∈ revision.checks

theorem isOfType_of_fromRules {rules : PolicyTables} {item : EffectiveCheck}
    {r : CheckResult} (h : FromRules rules item)
    (hrevision : r.policyRevisionID = some item.sourceRevisionID)
    (hkey : r.checkKey = item.definition.key) :
    IsOfType rules r item.definition.type := by
  obtain ⟨v, hv, hid, hmem⟩ := h
  refine ⟨v, hv, ?_, item.definition, hmem, hkey.symm, rfl⟩
  rw [hrevision, hid]

section Effective

variable {rules : PolicyTables} {policy : MonitoringPolicy}
  {effective : List (String × EffectiveCheck)}

/-- Every entry of the dictionary comes from a revision. -/
def AllFromRules (rules : PolicyTables)
    (effective : List (String × EffectiveCheck)) : Prop :=
  ∀ e ∈ effective, FromRules rules e.2

theorem allFromRules_mergeDefinition {revision : MonitoringPolicyRevision}
    (hrevision : revision ∈ rules.revisions) {definition : CheckDefinition}
    (hmem : definition ∈ revision.checks) (h : AllFromRules rules effective) :
    AllFromRules rules
      (mergeDefinition policy revision effective definition) := by
  intro e he
  unfold mergeDefinition at he
  split at he
  · rcases List.mem_append.mp he with he | he
    · exact h e (List.mem_of_mem_filter he)
    · rw [List.mem_singleton.mp he]
      exact ⟨revision, hrevision, rfl, hmem⟩
  · exact h e (List.mem_of_mem_filter he)

theorem allFromRules_mergePolicy (h : AllFromRules rules effective) :
    AllFromRules rules (mergePolicy rules effective policy) := by
  unfold mergePolicy
  split
  · exact h
  · next revision hrevision =>
      have hmem : revision ∈ rules.revisions :=
        List.mem_of_mem_filter (List.argmax_mem hrevision)
      exact List.foldlRecOn revision.checks _ h fun _ hb d hd =>
        allFromRules_mergeDefinition hmem hd hb

theorem fromRules_of_mem_effective {tables : MonitoringTables}
    {agent : AgentPlace} {item : EffectiveCheck}
    (h : item ∈ tables.effective agent) : FromRules tables.rules item := by
  obtain ⟨e, he, rfl⟩ := List.mem_map.mp h
  have hempty : AllFromRules tables.rules [] :=
    fun _ h => absurd h List.not_mem_nil
  exact List.foldlRecOn _ (mergePolicy tables.rules) hempty
    (fun _ hb _ _ => allFromRules_mergePolicy hb) e
    ((List.mem_insertionSort _).mp he)

end Effective

/-! ## What is claimed, and the books it rests on -/

/-- The two types of check the server evaluates. -/
def serverOwnedTypes : List CheckType := [.offline, .patchAge]

/-- `submitted` are the ids of the rows that submissions have created. -/
structure ServerOwned (tables : MonitoringTables) (submitted : List String) :
    Prop where
  created : ∀ r ∈ tables.db.results, ∀ type ∈ serverOwnedTypes,
    IsOfType tables.rules r type → r.id ∉ submitted
  quiet : ∀ e ∈ tables.db.alertDB.events, opens e = true →
    ∀ r ∈ tables.db.results, e.sourceResultID = some r.id →
      IsOfType tables.rules r .patchAge →
        r.status ≠ .unknown ∧ r.value ≠ none

structure Books (tables : MonitoringTables) (submitted : List String) :
    Prop where
  rules : RulesSound tables.rules
  known : ∀ r ∈ tables.db.results, ∃ revision ∈ tables.rules.revisions,
    r.policyRevisionID = some revision.id
  submitted : ∀ id ∈ submitted, ∃ r ∈ tables.db.results, r.id = id
  sources : ∀ e ∈ tables.db.alertDB.events, opens e = true →
    ∀ id, e.sourceResultID = some id → ∃ r ∈ tables.db.results, r.id = id

section Record

variable {env : MonitoringEnv} {now : Int} {request : RecordRequest}
  {detail : ResultDetail} {tables tables' : MonitoringTables}
  {item : EffectiveCheck} {submitted submitted' : List String}

/-- The request is about the check. -/
structure About (request : RecordRequest) (item : EffectiveCheck) : Prop where
  revision : request.policyRevisionID = some item.sourceRevisionID
  key : request.checkKey = item.definition.key

theorem Books.record (h : Books tables submitted)
    (hrecorded : Recorded env now request detail tables tables')
    (habout : About request item) (hitem : FromRules tables.rules item)
    (hsubmitted : ∀ id ∈ submitted', id ∈ submitted ∨
      id = (rowOf env now request tables).id) : Books tables' submitted' := by
  have hkept : ∀ id, (∃ r ∈ tables.db.results, r.id = id) →
      ∃ r ∈ tables'.db.results, r.id = id := by
    intro id ⟨r, hr, hid⟩
    rw [hrecorded.results]
    exact ⟨r, List.mem_append_left _ hr, hid⟩
  have hnew : ∃ r ∈ tables'.db.results,
      r.id = (rowOf env now request tables).id := by
    rw [hrecorded.results]
    exact ⟨_, List.mem_append_right _ List.mem_cons_self, rfl⟩
  constructor
  · rw [hrecorded.rules]
    exact h.rules
  · intro r hr
    rw [hrecorded.results] at hr
    rw [hrecorded.rules]
    rcases List.mem_append.mp hr with hr | hr
    · exact h.known r hr
    · rw [List.mem_singleton.mp hr]
      obtain ⟨v, hv, hid, _⟩ := hitem
      refine ⟨v, hv, ?_⟩
      rw [hid]
      exact habout.revision
  · intro id hid
    rcases hsubmitted id hid with hold | rfl
    · exact hkept id (h.submitted id hold)
    · exact hnew
  · intro e he hopens id hid
    obtain ⟨events, hevents, hopening⟩ := hrecorded.events
    rw [hevents] at he
    rcases List.mem_append.mp he with he | he
    · exact hkept id (h.sources e he hopens id hid)
    · have hsource := (hopening e he hopens).1
      rw [hid] at hsource
      rw [Option.some.inj hsource]
      exact hnew

/-- A new row is the server's, or it is of a type that is not the server's
own; and if its patch age is unknown, its status is not applied. -/
theorem ServerOwned.record (h : ServerOwned tables submitted)
    (hbooks : Books tables submitted)
    (hrecorded : Recorded env now request detail tables tables')
    (habout : About request item) (hitem : FromRules tables.rules item)
    (hsubmitted : ∀ id ∈ submitted', id ∈ submitted ∨
      id = (rowOf env now request tables).id ∧
        item.definition.type ∉ serverOwnedTypes)
    (hquiet : item.definition.type = .patchAge →
      request.alertOnUnknown = false ∧
        (request.value = none → request.status = .unknown)) :
    ServerOwned tables' submitted' := by
  have htype : ∀ type,
      IsOfType tables.rules (rowOf env now request tables) type →
        type = item.definition.type := fun type h =>
    isOfType_unique hbooks.rules h
      (isOfType_of_fromRules hitem habout.revision habout.key)
  constructor
  · intro r hr type hmem hof hid
    rw [hrecorded.results] at hr
    rw [hrecorded.rules] at hof
    rcases List.mem_append.mp hr with hr | hr
    · rcases hsubmitted r.id hid with hold | ⟨heq, _⟩
      · exact h.created r hr type hmem hof hold
      · exact hrecorded.new r hr heq
    · rw [List.mem_singleton.mp hr] at hof hid
      rcases hsubmitted _ hid with hold | ⟨_, htypes⟩
      · obtain ⟨q, hq, hqid⟩ := hbooks.submitted _ hold
        exact hrecorded.new q hq hqid
      · rw [htype type hof] at hmem
        exact htypes hmem
  · intro e he hopens r hr hsource hof
    obtain ⟨events, hevents, hopening⟩ := hrecorded.events
    rw [hrecorded.results] at hr
    rw [hrecorded.rules] at hof
    rw [hevents] at he
    rcases List.mem_append.mp he with he | he
    · rcases List.mem_append.mp hr with hr | hr
      · exact h.quiet e he hopens r hr hsource hof
      · obtain ⟨q, hq, hqid⟩ := hbooks.sources e he hopens r.id hsource
        rw [List.mem_singleton.mp hr] at hqid
        exact absurd hqid (hrecorded.new q hq)
    · obtain ⟨hid, happlied⟩ := hopening e he hopens
      rw [hsource] at hid
      rcases List.mem_append.mp hr with hr | hr
      · exact absurd (Option.some.inj hid) (hrecorded.new r hr)
      · rw [List.mem_singleton.mp hr] at hof ⊢
        obtain ⟨halert, hunknown⟩ := hquiet (htype _ hof).symm
        have hstatus : request.status ≠ .unknown :=
          happlied.resolve_left (by rw [halert]; exact Bool.false_ne_true)
        exact ⟨hstatus, fun hvalue => hstatus (hunknown hvalue)⟩

end Record

/-! ## The server's evaluators -/

/-- The books on the way through a request that leaves the rules alone. -/
structure Kept (rules : PolicyTables) (submitted : List String)
    (tables : MonitoringTables) : Prop where
  rules_eq : tables.rules = rules
  books : Books tables submitted
  owned : ServerOwned tables submitted

section Evaluators

variable {env : EvaluatorEnv} {now : Int} {tables tables' : MonitoringTables}
  {item : EffectiveCheck} {rules : PolicyTables} {submitted : List String}

theorem applyHysteresis_unknown {definition : CheckDefinition}
    {previous : Option (CheckResult × ResultDetail)} {stable : Server.Stable}
    (h : applyHysteresis env .unknown definition previous = some stable) :
    stable.status = .unknown := by
  unfold applyHysteresis at h
  rw [if_pos rfl] at h
  rw [← Option.some.inj h]

/-- A patch age that is unknown is one the evaluator calls unknown. -/
theorem evaluatePatchAge_unknown
    {snapshot : Option (AgentInventorySnapshot UpdatesPayload)}
    (h : (evaluatePatchAge env snapshot now item).value = none) :
    (evaluatePatchAge env snapshot now item).raw = .unknown := by
  unfold evaluatePatchAge at h ⊢
  split
  · rfl
  · next stored =>
      split
      · rfl
      · next hstatus =>
          split
          · rfl
          · next hinstalled =>
              simp only [if_neg hstatus, if_neg hinstalled] at h
              split
              · rfl
              · next newest hnewest =>
                  simp only [hnewest] at h
                  split
                  · rfl
                  · next hskew =>
                      rw [if_neg hskew] at h
                      cases h

theorem recorded_recordEvaluation {checkType agentID : String}
    {alertOnUnknown : Bool} {evaluation : Evaluation}
    (h : recordEvaluation env checkType alertOnUnknown agentID item now
      evaluation tables = some tables') :
    ∃ request detail,
      Recorded env.toMonitoringEnv now request detail tables tables' ∧
        About request item ∧ request.alertOnUnknown = alertOnUnknown ∧
        request.value = evaluation.value ∧
        (evaluation.raw = .unknown → request.status = .unknown) := by
  unfold recordEvaluation at h
  split at h
  · cases h
  · next stable hstable =>
      refine ⟨_, _, recorded (eq_ok_of_toOption h), ⟨rfl, rfl⟩, rfl, rfl, ?_⟩
      intro hraw
      rw [hraw] at hstable
      exact applyHysteresis_unknown hstable

theorem kept_evaluateChecks {type : CheckType} {checkType : String}
    {alertOnUnknown : Bool} {agent : AgentPlace}
    {evaluate : EffectiveCheck → Evaluation}
    (hquiet : type = .patchAge → alertOnUnknown = false ∧ ∀ item,
      (evaluate item).value = none → (evaluate item).raw = .unknown)
    (hkept : Kept rules submitted tables)
    (h : evaluateChecks env type checkType alertOnUnknown agent now evaluate
      tables = some tables') : Kept rules submitted tables' := by
  refine foldlM_some_preserves ?_ h hkept
  intro before item after hmem hstep hbefore
  split at hstep
  · rw [← Option.some.inj hstep]
    exact hbefore
  · next htype =>
      split at hstep
      · rw [← Option.some.inj hstep]
        exact hbefore
      · obtain ⟨request, detail, hrecorded, habout, halert, hvalue, hstatus⟩ :=
          recorded_recordEvaluation hstep
        rw [not_not] at htype
        have hitem : FromRules before.rules item := by
          rw [hbefore.rules_eq, ← hkept.rules_eq]
          exact fromRules_of_mem_effective hmem
        refine ⟨hrecorded.rules.trans hbefore.rules_eq,
          hbefore.books.record hrecorded habout hitem fun id hid => .inl hid,
          hbefore.owned.record hbefore.books hrecorded habout hitem
            (fun id hid => .inl hid) ?_⟩
        intro hpatch
        obtain ⟨hfalse, hunknown⟩ := hquiet (htype.symm.trans hpatch)
        refine ⟨halert.trans hfalse, ?_⟩
        intro hnone
        exact hstatus (hunknown item (hvalue.symm.trans hnone))

theorem kept_sweepOnce
    {snapshots : List (AgentInventorySnapshot UpdatesPayload)}
    {agents : List String} {offlineAt patchAgeAt : String → Int}
    (hkept : Kept rules submitted tables)
    (h : sweepOnce env snapshots agents offlineAt patchAgeAt tables =
      some tables') : Kept rules submitted tables' := by
  refine foldlM_some_preserves ?_ h hkept
  intro before agentID after _ hstep hbefore
  unfold sweepAgent at hstep
  split at hstep
  · rw [← Option.some.inj hstep]
    exact hbefore
  · obtain ⟨mid, hoffline, hpatch⟩ := Option.bind_eq_some_iff.mp hstep
    have hother : CheckType.offline ≠ .patchAge := by decide
    have hmid : Kept rules submitted mid :=
      kept_evaluateChecks (fun h => absurd h hother) hbefore hoffline
    exact kept_evaluateChecks
      (fun _ => ⟨rfl, fun _ => evaluatePatchAge_unknown⟩) hmid hpatch

end Evaluators

/-! ## Submissions -/

section Submit

variable {env : MonitoringEnv} {agentID : String} {now : Int}
  {effective : List EffectiveCheck} {state state' : SubmitState}
  {result : AgentCheckResultIn} {body : List AgentCheckResultIn}
  {rules : PolicyTables} {submitted : List String}

theorem about_of_assignmentOf {item : EffectiveCheck}
    (h : assignmentOf effective result = some item) :
    item ∈ effective ∧ About (result.request agentID) item := by
  obtain ⟨hfind, hsource⟩ := Option.filter_eq_some_iff.mp h
  rw [Bool.and_eq_true, decide_eq_true_iff, decide_eq_true_iff] at hsource
  have hkey := List.find?_some hfind
  rw [decide_eq_true_iff] at hkey
  exact ⟨List.mem_of_find?_eq_some hfind, congrArg some hsource.2.symm, hkey.symm⟩

/-- An element is a duplicate, or a row that is recorded for a check that is
not an offline check. -/
theorem submitElement_cases
    (h : submitElement env agentID effective now state result = .ok state') :
    state'.tables = state.tables ∧ state.tables.result result.id ≠ none ∨
      state.tables.result result.id = none ∧
        Recorded env now (result.request agentID) result.detail state.tables
          state'.tables ∧
        ∃ item, assignmentOf effective result = some item ∧
          item.definition.type ≠ .offline := by
  unfold submitElement at h
  split at h
  · cases h
  · next hcheck =>
      split at h
      · next existing hexisting =>
          split at h
          · cases h
            exact .inl ⟨rfl, by rw [hexisting]; exact nofun⟩
          · cases h
      · next hnone =>
          split at h
          · cases h
          · next tables hrecord =>
              cases h
              refine .inr ⟨hnone, recorded hrecord, ?_⟩
              unfold checkElement at hcheck
              split at hcheck
              · cases hcheck
              · next item hitem =>
                  refine ⟨item, hitem, ?_⟩
                  split at hcheck
                  · cases hcheck
                  · next hoffline => exact hoffline

/-- Along a batch, the rows after the first ones are the agent's. -/
def Submitting (rules : PolicyTables) (submitted : List String)
    (base : List CheckResult) (state : SubmitState) : Prop :=
  ∃ new, state.tables.db.results = base ++ new ∧
    Kept rules (submitted ++ new.map (·.id)) state.tables

theorem submitting_submitElement {base : List CheckResult}
    (hitems : ∀ item ∈ effective, FromRules rules item)
    (hfree : (∀ r ∈ base, r.id ≠ result.id) → ∀ item,
      assignmentOf effective result = some item →
        item.definition.type ≠ .patchAge)
    (h : submitElement env agentID effective now state result = .ok state')
    (hstate : Submitting rules submitted base state) :
    Submitting rules submitted base state' := by
  obtain ⟨new, hresults, hkept⟩ := hstate
  rcases submitElement_cases h with ⟨hsame, _⟩ | ⟨hnone, hrecorded, item, hitem,
    hoffline⟩
  · rw [← hsame] at hresults hkept
    exact ⟨new, hresults, hkept⟩
  · obtain ⟨hmem, habout⟩ := @about_of_assignmentOf agentID _ _ _ hitem
    have hpatch : item.definition.type ≠ .patchAge := by
      refine hfree ?_ item hitem
      intro r hr
      refine result_eq_none.mp hnone r ?_
      rw [hresults]
      exact List.mem_append_left _ hr
    have htypes : item.definition.type ∉ serverOwnedTypes := by
      intro hmem
      rcases List.mem_cons.mp hmem with heq | hmem
      · exact hoffline heq
      · exact hpatch (List.mem_singleton.mp hmem)
    have hrules : FromRules state.tables.rules item := by
      rw [hkept.rules_eq]
      exact hitems item hmem
    have hids : ∀ id ∈ submitted ++ (new ++ [rowOf env now
        (result.request agentID) state.tables]).map (·.id),
        id ∈ submitted ++ new.map (·.id) ∨
          id = (rowOf env now (result.request agentID) state.tables).id ∧
            item.definition.type ∉ serverOwnedTypes := by
      intro id hid
      rw [List.map_append, ← List.append_assoc] at hid
      rcases List.mem_append.mp hid with hid | hid
      · exact .inl hid
      · exact .inr ⟨List.mem_singleton.mp hid, htypes⟩
    refine ⟨new ++ [rowOf env now (result.request agentID) state.tables], ?_,
      hrecorded.rules.trans hkept.rules_eq, ?_, ?_⟩
    · rw [hrecorded.results, hresults, List.append_assoc]
    · exact hkept.books.record hrecorded habout hrules fun id hid =>
        (hids id hid).imp_right And.left
    · exact hkept.owned.record hkept.books hrecorded habout hrules hids
        fun heq => absurd heq hpatch

/-- A row of a batch is stored as it is described. -/
theorem foldlM_submitElement_row {uuid : String}
    (h : body.foldlM (submitElement env agentID effective now) state =
      .ok state') (hids : (body.map (·.id)).Nodup) (hmem : result ∈ body)
    (hnone : state.tables.result result.id = none) :
    (result.request agentID).row now uuid ∈ state'.tables.db.results := by
  induction body generalizing state with
  | nil => cases hmem
  | cons r rest ih =>
      obtain ⟨mid, hstep, hloop⟩ := foldlM_cons_eq_ok.mp h
      rw [List.map_cons, List.nodup_cons] at hids
      rcases List.mem_cons.mp hmem with rfl | hmem
      · rcases submitElement_cases hstep with ⟨_, hsome⟩ | ⟨_, hrecorded, _⟩
        · exact absurd hnone hsome
        · refine (foldlM_submitElement_stores hloop).2.2.1 _ ?_
          rw [hrecorded.results]
          exact List.mem_append_right _ List.mem_cons_self
      · refine ih hloop hids.2 hmem ?_
        have hne : r.id ≠ result.id := fun heq =>
          hids.1 (List.mem_map.mpr ⟨result, hmem, heq.symm⟩)
        rcases submitElement_cases hstep with ⟨hsame, _⟩ | ⟨_, hrecorded, _⟩
        · rw [hsame]
          exact hnone
        · rw [result_eq_none] at hnone ⊢
          intro q hq
          rw [hrecorded.results] at hq
          rcases List.mem_append.mp hq with hq | hq
          · exact hnone q hq
          · rw [List.mem_singleton.mp hq]
            exact hne

/-- No element of a batch the server takes makes a row for a patch age
check. -/
def NoPatchAge (env : MonitoringEnv) (agentID : String)
    (body : List AgentCheckResultIn) (now : Int) (tables : MonitoringTables) :
    Prop :=
  BatchTaken env agentID now tables body →
    ∀ agent, tables.agent agentID = some agent →
      ∀ r ∈ body, (∀ row ∈ tables.db.results, row.id ≠ r.id) →
        ∀ item, assignmentOf (tables.effective agent) r = some item →
          item.definition.type ≠ .patchAge

theorem submitMonitoringResults_eq_ok {tables : MonitoringTables}
    (h : submitMonitoringResults env agentID body now tables = .ok state') :
    ∃ agent, tables.agent agentID = some agent ∧
      (body.map (·.id)).Nodup ∧
      body.foldlM (submitElement env agentID (tables.effective agent) now)
        { tables } = .ok state' := by
  unfold submitMonitoringResults at h
  split at h
  · cases h
  · next agent hagent =>
      split at h
      · cases h
      · next hvalid =>
          split at h
          · cases h
          · rw [not_not] at hvalid
            simp only [batchValid, Bool.and_eq_true, decide_eq_true_eq] at hvalid
            exact ⟨agent, hagent, hvalid.2, h⟩

/-- A batch leaves the rules alone and adds rows behind the others. -/
theorem foldlM_submitElement_grows
    (h : body.foldlM (submitElement env agentID effective now) state =
      .ok state') :
    state'.tables.rules = state.tables.rules ∧
      ∃ new, state'.tables.db.results = state.tables.db.results ++ new := by
  refine foldlM_preserves (P := fun s : SubmitState =>
    s.tables.rules = state.tables.rules ∧
      ∃ new, s.tables.db.results = state.tables.db.results ++ new) ?_ h
    ⟨rfl, [], (List.append_nil _).symm⟩
  intro before r after _ hstep ⟨hrules, new, hresults⟩
  rcases submitElement_cases hstep with ⟨hsame, _⟩ | ⟨_, hrecorded, _⟩
  · rw [hsame]
    exact ⟨hrules, new, hresults⟩
  · refine ⟨hrecorded.rules.trans hrules,
      new ++ [rowOf env now (r.request agentID) before.tables], ?_⟩
    rw [hrecorded.results, hresults, List.append_assoc]

section Taken

variable {tables : MonitoringTables}
  (h : submitMonitoringResults env agentID body now tables = .ok state')
include h

theorem submitting_of_noPatchAge (hbooks : Books tables submitted)
    (howned : ServerOwned tables submitted)
    (hfree : NoPatchAge env agentID body now tables) :
    Submitting tables.rules submitted tables.db.results state' := by
  have htaken : BatchTaken env agentID now tables body :=
    submitMonitoringResults_isOk.mp ⟨state', h⟩
  obtain ⟨agent, hagent, _, hloop⟩ := submitMonitoringResults_eq_ok h
  have hstart : Kept tables.rules (submitted ++ ([] : List CheckResult).map (·.id))
      tables := by
    rw [List.map_nil, List.append_nil]
    exact ⟨rfl, hbooks, howned⟩
  refine foldlM_preserves ?_ hloop ⟨[], (List.append_nil _).symm, hstart⟩
  intro before r after hr hstep hbefore
  exact submitting_submitElement
    (fun item hitem => fromRules_of_mem_effective hitem)
    (hfree htaken agent hagent r hr) hstep hbefore

theorem noPatchAge_of_serverOwned
    (howned : ServerOwned state'.tables (submitted ++
      (state'.tables.db.results.drop tables.db.results.length).map (·.id))) :
    NoPatchAge env agentID body now tables := by
  obtain ⟨agent, hagent, hids, hloop⟩ := submitMonitoringResults_eq_ok h
  obtain ⟨hrules, new, hresults⟩ := foldlM_submitElement_grows hloop
  intro _ agent' hagent' r hr hfresh item hitem hpatch
  rw [hagent] at hagent'
  cases hagent'
  obtain ⟨hmem, habout⟩ := @about_of_assignmentOf agentID _ _ _ hitem
  have hrow : (r.request agentID).row now "" ∈ state'.tables.db.results :=
    foldlM_submitElement_row hloop hids hr (result_eq_none.mpr hfresh)
  have htype : IsOfType state'.tables.rules ((r.request agentID).row now "")
      .patchAge := by
    rw [← hpatch, hrules]
    exact isOfType_of_fromRules (fromRules_of_mem_effective hmem)
      habout.revision habout.key
  refine howned.created _ hrow .patchAge
    (List.mem_cons_of_mem _ List.mem_cons_self) htype ?_
  rw [hresults, List.drop_left]
  rw [hresults] at hrow
  rcases List.mem_append.mp hrow with hold | hnew
  · exact absurd rfl (hfresh _ hold)
  · exact List.mem_append_right _ (List.mem_map_of_mem hnew)

end Taken

end Submit

/-! ## Runs -/

/-- The tables and the update scans, what each agent has last been assigned,
and the ids of the rows that submissions have created. -/
structure World where
  tables : MonitoringTables
  snapshots : List (AgentInventorySnapshot UpdatesPayload) := []
  assigned : String → List AgentCheckAssignment := fun _ => []
  submitted : List String := []

inductive Event where
  | heartbeat (agentID : String) (now : Int)
  | submit (agentID : String) (body : List AgentCheckResultIn) (now : Int)
  | sweep (agents : List String) (offlineAt patchAgeAt : String → Int)
  | other

/-- What other requests do: policies are edited, and no revision goes; alerts
are acted on, which opens none; endpoints move, and scans come in. -/
structure Surroundings (w w' : World) : Prop where
  results : w'.tables.db.results = w.tables.db.results
  events : ∀ e ∈ w'.tables.db.alertDB.events, opens e = true →
    e ∈ w.tables.db.alertDB.events
  rules : RulesSound w'.tables.rules
  revisions : ∀ revision ∈ w.tables.rules.revisions,
    revision ∈ w'.tables.rules.revisions
  submitted : w'.submitted = w.submitted

def World.heartbeat (w : World) (agent : AgentPlace) (now : Int) : World :=
  { w with
    tables := { w.tables with
      lastSeen := Function.update w.tables.lastSeen agent.id (some now) }
    assigned :=
      Function.update w.assigned agent.id (monitoringChecks w.tables agent) }

def World.submit (w : World) (state : SubmitState) : World :=
  { w with
    tables := state.tables
    submitted := w.submitted ++ (state.tables.db.results.drop
      w.tables.db.results.length).map (·.id) }

inductive Step (env : EvaluatorEnv) : World → Event → World → Prop
  | heartbeat {w agent now} (hagent : w.tables.agent agent.id = some agent) :
      Step env w (.heartbeat agent.id now) (w.heartbeat agent now)
  | submitted {w agentID body now state}
      (h : submitMonitoringResults env.toMonitoringEnv agentID body now
        w.tables = .ok state) :
      Step env w (.submit agentID body now) (w.submit state)
  | refused {w agentID body now e}
      (h : submitMonitoringResults env.toMonitoringEnv agentID body now
        w.tables = .error e) :
      Step env w (.submit agentID body now) w
  | swept {w agents offlineAt patchAgeAt tables}
      (h : sweepOnce env w.snapshots agents offlineAt patchAgeAt w.tables =
        some tables) :
      Step env w (.sweep agents offlineAt patchAgeAt) { w with tables }
  | rolledBack {w agents offlineAt patchAgeAt}
      (h : sweepOnce env w.snapshots agents offlineAt patchAgeAt w.tables =
        none) :
      Step env w (.sweep agents offlineAt patchAgeAt) w
  | other {w w'} (h : Surroundings w w') : Step env w .other w'

/-- No submission that is taken makes a row for a patch age check. -/
def AgentsOwnChecks (env : EvaluatorEnv) (w : World) : Event → Prop
  | .submit agentID body now =>
    NoPatchAge env.toMonitoringEnv agentID body now w.tables
  | _ => True

/-- Before there is a row. -/
structure Start (w : World) : Prop where
  rules : RulesSound w.tables.rules
  results : w.tables.db.results = []
  events : w.tables.db.alertDB.events = []
  submitted : w.submitted = []

/-- The states runs reach by events that `may` happen. -/
inductive Reaches (env : EvaluatorEnv) (may : World → Event → Prop) :
    World → Prop
  | start {w} (h : Start w) : Reaches env may w
  | step {w e w'} (before : Reaches env may w) (allowed : may w e)
      (next : Step env w e w') : Reaches env may w'

section Run

variable {env : EvaluatorEnv} {w w' : World} {e : Event}

/-- A row keeps its type while no revision goes. -/
theorem isOfType_surroundings (h : Surroundings w w')
    (hbooks : Books w.tables w.submitted) {r : CheckResult}
    (hr : r ∈ w.tables.db.results) {type : CheckType}
    (htype : IsOfType w'.tables.rules r type) :
    IsOfType w.tables.rules r type := by
  obtain ⟨v, hv, hid⟩ := hbooks.known r hr
  obtain ⟨v', hv', hid', d, hd, hkey, hdtype⟩ := htype
  have hsame : v' = v := h.rules.revision_ext hv' (h.revisions v hv)
    (Option.some.inj (hid'.symm.trans hid))
  rw [hsame] at hd
  exact ⟨v, hv, hid, d, hd, hkey, hdtype⟩

theorem books_start (h : Start w) :
    Books w.tables w.submitted ∧ ServerOwned w.tables w.submitted := by
  refine ⟨⟨h.rules, ?_, ?_, ?_⟩, ?_, ?_⟩
  · rw [h.results]
    exact fun _ hr => absurd hr List.not_mem_nil
  · rw [h.submitted]
    exact fun _ hid => absurd hid List.not_mem_nil
  · rw [h.events]
    exact fun _ he => absurd he List.not_mem_nil
  · rw [h.results]
    exact fun _ hr => absurd hr List.not_mem_nil
  · rw [h.events]
    exact fun _ he => absurd he List.not_mem_nil

theorem books_surroundings (h : Surroundings w w')
    (hbooks : Books w.tables w.submitted)
    (howned : ServerOwned w.tables w.submitted) :
    Books w'.tables w'.submitted ∧ ServerOwned w'.tables w'.submitted := by
  refine ⟨⟨h.rules, ?_, ?_, ?_⟩, ?_, ?_⟩
  · intro r hr
    rw [h.results] at hr
    obtain ⟨v, hv, hid⟩ := hbooks.known r hr
    exact ⟨v, h.revisions v hv, hid⟩
  · rw [h.submitted, h.results]
    exact hbooks.submitted
  · intro e he hopens
    rw [h.results]
    exact hbooks.sources e (h.events e he hopens) hopens
  · intro r hr type hmem htype
    rw [h.results] at hr
    rw [h.submitted]
    exact howned.created r hr type hmem (isOfType_surroundings h hbooks hr htype)
  · intro e he hopens r hr hsource htype
    rw [h.results] at hr
    exact howned.quiet e (h.events e he hopens) hopens r hr hsource
      (isOfType_surroundings h hbooks hr htype)

theorem submitting_submit {state : SubmitState}
    (h : Submitting w.tables.rules w.submitted w.tables.db.results state) :
    Books (w.submit state).tables (w.submit state).submitted ∧
      ServerOwned (w.submit state).tables (w.submit state).submitted := by
  obtain ⟨new, hresults, hkept⟩ := h
  have hids : (w.submit state).submitted =
      w.submitted ++ new.map (·.id) := by
    show w.submitted ++ (state.tables.db.results.drop
      w.tables.db.results.length).map (·.id) = _
    rw [hresults, List.drop_left]
  rw [hids]
  exact ⟨hkept.books, hkept.owned⟩

/-- One step. -/
theorem books_step (hstep : Step env w e w')
    (hbooks : Books w.tables w.submitted)
    (howned : ServerOwned w.tables w.submitted)
    (hallowed : AgentsOwnChecks env w e) :
    Books w'.tables w'.submitted ∧ ServerOwned w'.tables w'.submitted := by
  cases hstep with
  | heartbeat hagent =>
      exact ⟨⟨hbooks.rules, hbooks.known, hbooks.submitted, hbooks.sources⟩,
        ⟨howned.created, howned.quiet⟩⟩
  | submitted h =>
      exact submitting_submit (submitting_of_noPatchAge h hbooks howned hallowed)
  | refused h => exact ⟨hbooks, howned⟩
  | swept h =>
      have hkept : Kept w.tables.rules w.submitted _ :=
        kept_sweepOnce ⟨rfl, hbooks, howned⟩ h
      exact ⟨hkept.books, hkept.owned⟩
  | rolledBack h => exact ⟨hbooks, howned⟩
  | other h => exact books_surroundings h hbooks howned

theorem books_reaches (h : Reaches env (AgentsOwnChecks env) w) :
    Books w.tables w.submitted ∧ ServerOwned w.tables w.submitted := by
  induction h with
  | start h => exact books_start h
  | step _ allowed next ih => exact books_step next ih.1 ih.2 allowed

theorem agentsOwnChecks_of_step (hstep : Step env w e w')
    (howned : ServerOwned w'.tables w'.submitted) : AgentsOwnChecks env w e := by
  cases hstep with
  | heartbeat hagent => trivial
  | submitted h => exact noPatchAge_of_serverOwned h howned
  | refused h =>
      intro htaken
      obtain ⟨state, hok⟩ := submitMonitoringResults_isOk.mpr htaken
      rw [h] at hok
      cases hok
  | swept h => trivial
  | rolledBack h => trivial
  | other h => trivial

end Run

/-! ## An agent that is handed a check it does not know -/

def sampleEvaluators : EvaluatorEnv where
  toMonitoringEnv := sampleEnv
  isoformat := fun _ => ""
  intText := fun _ => none

theorem hundred_is_given :
    some (Threshold.mk .gt none (some hundredDouble)) ≠ none := by
  intro h
  cases h

def patchCheck : CheckDefinition where
  key := "patches"
  type := .patchAge
  intervalSeconds := 3600
  threshold := some { op := .gt, warning := none, critical := some hundredDouble }
  key_ok := by decide
  interval_ok := by decide
  threshold_ok := hundred_is_given
  patchAge_ok := by decide

/-- One endpoint, and one policy with the check. -/
def patchTables : MonitoringTables where
  rules :=
    { policies := [⟨"p", "default", .global, none, true, 0⟩]
      revisions := [⟨"v", "p", 1, [patchCheck]⟩] }
  db := ⟨⟨⟨fun _ => some "site", fun _ => none⟩, [], [], [], []⟩, []⟩
  active := fun _ => true
  lastSeen := fun _ => none

def patchWorld : World where
  tables := patchTables

/-- What the agent's evaluator makes of the check. -/
def unsupportedResult : AgentCheckResultIn where
  id := "00000000000000000000000000000001"
  policyID := "p"
  policyRevisionID := "v"
  checkKey := "patches"
  status := .unknown
  value := none
  detail := some
    [("check_type", .str "patch_age"), ("reason", .str "unsupported_check_type"),
      ("raw_status", .str "unknown"),
      ("hysteresis",
        .obj [("pending_status", .str ""), ("pending_count", .num (.int 0))])]
  evaluatedAt := 0

def patchAssigned : World := patchWorld.heartbeat ⟨"a", "site"⟩ 0

/-- The row that is stored. -/
def patchRow : CheckResult where
  id := "00000000000000000000000000000001"
  agentID := "a"
  policyID := some "p"
  policyRevisionID := some "v"
  checkKey := "patches"
  status := .unknown
  value := none
  evaluatedAt := 0

theorem start_patchWorld : Start patchWorld := by
  refine ⟨⟨?_, ?_⟩, rfl, rfl, rfl⟩
  · decide
  · intro v hv
    rw [List.mem_singleton.mp hv]
    decide

theorem step_patchWorld :
    Step sampleEvaluators patchWorld (.heartbeat "a" 0) patchAssigned :=
  @Step.heartbeat sampleEvaluators patchWorld ⟨"a", "site"⟩ 0 rfl

theorem submit_unsupported :
    (submitMonitoringResults sampleEnv "a" [unsupportedResult] 0
      patchAssigned.tables).toOption.map (fun state =>
        (state.tables.db.results,
          (state.tables.db.alertDB.events.filter opens).map (·.sourceResultID))) =
      some ([patchRow], [some patchRow.id]) := by
  decide +kernel

/-- The submission is taken: its row is there, and an alert has opened for it. -/
theorem submitted_unsupported :
    ∃ state, submitMonitoringResults sampleEnv "a" [unsupportedResult] 0
        patchAssigned.tables = .ok state ∧
      state.tables.db.results = [patchRow] ∧
      (∃ e ∈ state.tables.db.alertDB.events, opens e = true ∧
        e.sourceResultID = some patchRow.id) ∧
      IsOfType state.tables.rules patchRow .patchAge := by
  obtain ⟨state, hstate, hfacts⟩ := Option.map_eq_some_iff.mp submit_unsupported
  obtain ⟨hrows, hevents⟩ := Prod.ext_iff.mp hfacts
  have hok := eq_ok_of_toOption hstate
  obtain ⟨agent, _, _, hloop⟩ := submitMonitoringResults_eq_ok hok
  have hmem : some patchRow.id ∈
      (state.tables.db.alertDB.events.filter opens).map (·.sourceResultID) := by
    rw [show List.map _ _ = [some patchRow.id] from hevents]
    exact List.mem_cons_self
  obtain ⟨e, he, hsource⟩ := List.mem_map.mp hmem
  obtain ⟨hin, hopens⟩ := List.mem_filter.mp he
  refine ⟨state, hok, hrows, ⟨e, hin, hopens, hsource⟩, ?_⟩
  rw [(foldlM_submitElement_grows hloop).1]
  exact ⟨_, List.mem_cons_self, rfl, _, List.mem_cons_self, rfl, rfl⟩

/-! ## Whose the checks are -/

/-- As long as no submission the server takes makes a row for a patch age check,
the checks of both types are the server's in every state of a run; and the
first submission that makes one ends it. -/
theorem server_owned_while {env : EvaluatorEnv} {w w' : World} {e : Event}
    (hrun : Reaches env (AgentsOwnChecks env) w) (hstep : Step env w e w') :
    ServerOwned w.tables w.submitted ∧
      (ServerOwned w'.tables w'.submitted ↔ AgentsOwnChecks env w e) := by
  obtain ⟨hbooks, howned⟩ := books_reaches hrun
  exact ⟨howned, agentsOwnChecks_of_step hstep,
    fun hallowed => (books_step hstep hbooks howned hallowed).2⟩

theorem server_owned_while_heartbeat :
    ServerOwned patchAssigned.tables patchAssigned.submitted ∧
      ∃ w', Step sampleEvaluators patchAssigned
          (.submit "a" [unsupportedResult] 0) w' ∧
        (ServerOwned w'.tables w'.submitted ↔
          NoPatchAge sampleEnv "a" [unsupportedResult] 0 patchAssigned.tables) := by
  obtain ⟨state, hok, _⟩ := submitted_unsupported
  have hfirst : AgentsOwnChecks sampleEvaluators patchWorld
      (.heartbeat "a" 0) := trivial
  have hrun : Reaches sampleEvaluators (AgentsOwnChecks sampleEvaluators)
      patchAssigned := .step (.start start_patchWorld) hfirst step_patchWorld
  have hstep : Step sampleEvaluators patchAssigned
      (.submit "a" [unsupportedResult] 0) (patchAssigned.submit state) :=
    .submitted hok
  have howned := server_owned_while hrun hstep
  exact ⟨howned.1, _, hstep, howned.2⟩

/-- The heartbeat assigns the check to the agent, which does not know it and
says so, and its answer is stored as a patch age and opens an alert. -/
theorem unsupported_opens_alert :
    (∃ w, Reaches sampleEvaluators (fun _ _ => True) w ∧
      (w.assigned "a").map (·.definition.type) = [.patchAge] ∧
      ∃ r ∈ w.tables.db.results, IsOfType w.tables.rules r .patchAge ∧
        r.status = .unknown ∧ r.id ∈ w.submitted ∧
        ∃ e ∈ w.tables.db.alertDB.events, opens e = true ∧
          e.sourceResultID = some r.id) ∧
    ¬ ∀ w, Reaches sampleEvaluators (fun _ _ => True) w →
      ServerOwned w.tables w.submitted := by
  obtain ⟨state, hok, hrows, hopened, htype⟩ := submitted_unsupported
  have hrun : Reaches sampleEvaluators (fun _ _ => True)
      (patchAssigned.submit state) :=
    .step (.step (.start start_patchWorld) trivial step_patchWorld) trivial
      (.submitted hok)
  have hrow : patchRow ∈ (patchAssigned.submit state).tables.db.results := by
    show patchRow ∈ state.tables.db.results
    rw [hrows]
    exact List.mem_cons_self
  have hid : patchRow.id ∈ (patchAssigned.submit state).submitted := by
    show patchRow.id ∈ [] ++ (state.tables.db.results.drop 0).map (·.id)
    rw [hrows]
    exact List.mem_cons_self
  refine ⟨⟨_, hrun, ?_, patchRow, hrow, htype, rfl, hid, hopened⟩, ?_⟩
  · show (patchAssigned.assigned "a").map (·.definition.type) = _
    decide +kernel
  · intro hall
    exact (hall _ hrun).created patchRow hrow .patchAge
      (List.mem_cons_of_mem _ List.mem_cons_self) htype hid

end NodeLink.Proofs.ServerOwnedChecks
