import NodeLink.Proofs.CanonicalAgreement
import NodeLink.Proofs.ScheduledSlots

/-!
# One task and the others

When a pass of the scheduler gets to its end. All due tasks share one loop
and one session, so an exception at one of them undoes the turns before it
and takes the turns after it away. What raises is the search for a next run,
the patch gate where it cannot read a payload or a deferral leaves the
calendar, and the signing of a command.
-/

namespace NodeLink.Proofs

open Lib Server Server.PatchPolicies Server.Scheduler

variable {env : SchedulerEnv} {now : Int}

/-! ## The patch gate -/

/-- The rule that decides on the update does not defer it past the
calendar. -/
def Judgeable (ops : PyTextOps) (revision : PolicyRevision)
    (update : ScannedUpdate) : Prop :=
  ∀ rule released, revision.rules.find? (ruleMatches ops · update) = some rule →
    rule.action = .defer → update.lastDeploymentChange = some released →
      InRange (released.wall + (rule.deferDays.getD 0 : Nat) * dayMicros)

theorem decide_isOk_iff {rule : PatchRule} {update : ScannedUpdate} :
    (∃ d, rule.decide update now = .ok d) ↔
      ∀ released, rule.action = .defer →
        update.lastDeploymentChange = some released →
          InRange (released.wall + (rule.deferDays.getD 0 : Nat) * dayMicros) := by
  unfold PatchRule.decide
  split
  · next h => simp [h]
  · next h => simp [h]
  · next h =>
    simp only [bind_eq_ok, deferSatisfied]
    cases hreleased : update.lastDeploymentChange with
    | none =>
        simp only [reduceCtorEq, false_imp_iff, implies_true, iff_true]
        exact ⟨_, false, rfl, rfl⟩
    | some released =>
        constructor
        · rintro ⟨d, elapsed, hin, -⟩ released' - hsame
          obtain rfl := Option.some.inj hsame
          by_contra hout
          simp only [if_neg hout] at hin
          cases hin
        · intro hin
          have hin := hin released h rfl
          simp only [if_pos hin, Except.ok.injEq, exists_eq_left']
          split
          · exact ⟨_, rfl⟩
          · exact ⟨_, rfl⟩

theorem classify_isOk_iff (now : Int) {ops : PyTextOps} {revision : PolicyRevision}
    {update : ScannedUpdate} :
    (∃ v, classify ops revision now update = .ok v) ↔
      Judgeable ops revision update := by
  have hmap : (∃ v, classify ops revision now update = .ok v) ↔
      ∃ d, evaluateUpdate ops revision.rules revision.defaultAction update now
        = .ok d := by
    unfold classify
    cases evaluateUpdate ops revision.rules revision.defaultAction update now with
    | error e => simp [Except.map]
    | ok d => simp [Except.map]
  rw [hmap, evaluateUpdate]
  cases hfind : revision.rules.find? (ruleMatches ops · update) with
  | none => simp [Judgeable, hfind]
  | some rule =>
      simp only [decide_isOk_iff, Judgeable, hfind, Option.some.injEq]
      constructor
      · rintro h _ released rfl
        exact h released
      · exact fun h released => h rule released rfl

/-- A list, a text or a dictionary. -/
def isIterable : PyJson → Bool
  | .arr _ | .str _ | .obj _ => true
  | _ => false

theorem iterate_isOk_iff {v : PyJson} :
    (∃ items, iterate v = .ok items) ↔ isIterable v = true := by
  cases v <;> simp [iterate, isIterable]

/-- The payload names its updates in a way the gate can read, and the updates
it judges can be judged. -/
def SelectionReads (ops : PyTextOps) (revision : PolicyRevision)
    (missing : List ScannedUpdate) (payload : PyDict) : Prop :=
  if asksForAll payload then ∀ update ∈ missing, Judgeable ops revision update
  else
    isIterable ((payload.get "kb_ids").getD (.arr [])) = true ∧
    isIterable ((payload.get "update_ids").getD (.arr [])) = true ∧
    (∀ keys key update, requestedUnder ops payload "kb_ids" ops.upper = .ok keys →
      key ∈ keys → lookUp (kbKey ops) missing key = some update →
        Judgeable ops revision update) ∧
    ∀ keys key update,
      requestedUnder ops payload "update_ids" ops.lower = .ok keys →
        key ∈ keys → lookUp (idKey ops) missing key = some update →
          Judgeable ops revision update

theorem judge_isOk_iff {ops : PyTextOps} {revision : PolicyRevision}
    {missing : List ScannedUpdate} {keyOf : ScannedUpdate → Option PyStr}
    {key : PyStr} :
    (∃ v, judge ops revision missing now keyOf key = .ok v) ↔
      ∀ update, lookUp keyOf missing key = some update →
        Judgeable ops revision update := by
  unfold judge
  cases lookUp keyOf missing key with
  | none => simp
  | some update => simp [classify_isOk_iff]

theorem requestedUnder_isOk_iff (ops : PyTextOps) {payload : PyDict}
    {key : String} (case : PyStr → PyStr) :
    (∃ keys, requestedUnder ops payload key case = .ok keys) ↔
      isIterable ((payload.get key).getD (.arr [])) = true := by
  rw [← iterate_isOk_iff, requestedUnder]
  cases iterate ((payload.get key).getD (.arr [])) <;> simp [Except.map]

theorem select_isOk_iff (now : Int) {ops : PyTextOps} {revision : PolicyRevision}
    {missing : List ScannedUpdate} {payload : PyDict} :
    (∃ selection, select ops revision missing now payload = .ok selection) ↔
      SelectionReads ops revision missing payload := by
  unfold select SelectionReads
  split
  · simp only [selectAll, bind_eq_ok, ← classify_isOk_iff now,
      ← mapM_isOk_iff]
    constructor
    · rintro ⟨selection, verdicts, h, -⟩
      exact ⟨verdicts, h⟩
    · rintro ⟨verdicts, h⟩
      exact ⟨_, verdicts, h, rfl⟩
  · rw [← requestedUnder_isOk_iff ops ops.upper,
      ← requestedUnder_isOk_iff ops ops.lower]
    simp only [selectNamed, bind_eq_ok]
    constructor
    · rintro ⟨selection, kbs, hkbs, ids, hids, kbVerdicts, hkbVerdicts,
        idVerdicts, hidVerdicts, -⟩
      refine ⟨⟨kbs, hkbs⟩, ⟨ids, hids⟩, ?_, ?_⟩
      · intro keys key update hkeys hkey hfound
        obtain rfl := Except.ok.inj (hkbs.symm.trans hkeys)
        exact judge_isOk_iff.mp
          (mapM_isOk_iff.mp ⟨_, hkbVerdicts⟩ key hkey) update hfound
      · intro keys key update hkeys hkey hfound
        obtain rfl := Except.ok.inj (hids.symm.trans hkeys)
        exact judge_isOk_iff.mp
          (mapM_isOk_iff.mp ⟨_, hidVerdicts⟩ key hkey) update hfound
    · rintro ⟨⟨kbs, hkbs⟩, ⟨ids, hids⟩, hkbJudged, hidJudged⟩
      obtain ⟨kbVerdicts, hkbVerdicts⟩ := mapM_isOk_iff.mpr fun key hkey =>
        judge_isOk_iff.mpr fun update hfound =>
          hkbJudged kbs key update hkbs hkey hfound
      obtain ⟨idVerdicts, hidVerdicts⟩ := mapM_isOk_iff.mpr fun key hkey =>
        judge_isOk_iff.mpr fun update hfound =>
          hidJudged ids key update hids hkey hfound
      exact ⟨_, kbs, hkbs, ids, hids, kbVerdicts, hkbVerdicts, idVerdicts,
        hidVerdicts, rfl⟩

/-- An installation under a patch policy can be read and judged. -/
def GateReads (env : SchedulerEnv) (fleet : Fleet) (task : ScheduledTask)
    (agent : ManagedAgent) : Prop :=
  task.kind = .installUpdates → ∀ policy revision,
    resolveEffectivePatchPolicy fleet.patch agent.toAgentPlace =
        some (policy, revision) →
      SelectionReads env.ops revision (fleet.patch.missing agent.id) task.payload

theorem evaluateUnder_isOk_iff (padYear : Bool) (policyID : String) (now : Int)
    {ops : PyTextOps} {tables : PatchTables} {agent : ManagedAgent}
    {revision : PolicyRevision} {payload : PyDict} :
    (∃ d, evaluateUnder ops padYear tables agent policyID revision payload now
        = .ok d) ↔
      SelectionReads ops revision (tables.missing agent.id) payload := by
  rw [← select_isOk_iff now]
  simp only [evaluateUnder, bind_eq_ok]
  constructor
  · rintro ⟨_, selection, h, -⟩
    exact ⟨selection, h⟩
  · rintro ⟨selection, h⟩
    exact ⟨_, selection, h, rfl⟩

theorem patchGate_isOk_iff (now : Int) {fleet : Fleet} {task : ScheduledTask}
    {agent : ManagedAgent} :
    (∃ r, patchGate env now fleet task agent = .ok r) ↔
      GateReads env fleet task agent := by
  unfold patchGate GateReads
  split
  · next hkind =>
    unfold PatchPolicies.evaluatePatchInstall
    cases hpolicy : resolveEffectivePatchPolicy fleet.patch agent.toAgentPlace with
    | none => simp
    | some winner =>
        obtain ⟨policy, revision⟩ := winner
        simp only [hkind, Option.some.injEq, Prod.mk.injEq, forall_const,
          and_imp]
        rw [show (∀ p r, policy = p → revision = r → SelectionReads env.ops r
            (fleet.patch.missing agent.id) task.payload) ↔
          SelectionReads env.ops revision (fleet.patch.missing agent.id)
            task.payload from ⟨fun h => h _ _ rfl rfl, by
              rintro h _ _ rfl rfl
              exact h⟩]
        rw [← evaluateUnder_isOk_iff env.padYear policy.id now]
        cases evaluateUnder env.ops env.padYear fleet.patch agent policy.id
            revision task.payload now with
        | error e => simp [Except.map]
        | ok d => simp [Except.map]
  · next hkind => simp [hkind]

/-! ## Turns -/

/-- What the turn of a task at an agent needs: unless the agent is passed
over before, the patch gate can read the payload, and the command that is
queued can be signed and expires within the calendar. -/
def AgentReady (env : SchedulerEnv) (now : Int) (task : ScheduledTask)
    (fleet : Fleet) (agent : ManagedAgent) : Prop :=
  approvalPolicy fleet task agent = none → busy fleet task agent = false →
    GateReads env fleet task agent ∧
      ∀ notes payload, patchGate env now fleet task agent =
          .ok (notes, some payload) →
        InRange (now + dayMicros) ∧
          ∃ bytes, canonicalCommandBytes env.padYear (envelopeFor env now task
            agent payload (env.drawn fleet.commands.length)) = .ok bytes

theorem signedCommand_isOk_iff {task : ScheduledTask} {agent : ManagedAgent}
    {payload : PyDict} {drawn : String × String} :
    (∃ command, signedCommand env now task agent payload drawn = .ok command) ↔
      InRange (now + dayMicros) ∧
        ∃ bytes, canonicalCommandBytes env.padYear
          (envelopeFor env now task agent payload drawn) = .ok bytes := by
  simp only [signedCommand, bind_eq_ok, require_eq_ok, exists_const,
    mapError_eq_ok]
  constructor
  · rintro ⟨command, hin, bytes, hbytes, -⟩
    exact ⟨hin, bytes, hbytes⟩
  · rintro ⟨hin, bytes, hbytes⟩
    exact ⟨_, hin, bytes, hbytes, rfl⟩

theorem agentTurn_isOk_iff {task : ScheduledTask} {agent : ManagedAgent}
    {s : PassState × List AgentOutcome} :
    (∃ s', agentTurn env now task s agent = .ok s') ↔
      AgentReady env now task s.1.tables.fleet agent := by
  unfold agentTurn AgentReady
  split
  · next policy hpolicy => simp [hpolicy]
  · next hpolicy =>
    split
    · next hbusy => simp [hbusy]
    · next hbusy =>
      simp only [hpolicy, hbusy, forall_const, ← patchGate_isOk_iff now,
        ← signedCommand_isOk_iff, bind_eq_ok]
      constructor
      · rintro ⟨s', ⟨notes, sent⟩, hgate, h⟩
        refine ⟨⟨_, hgate⟩, fun notes' payload hpasses => ?_⟩
        obtain ⟨-, rfl⟩ := Prod.mk.inj (Except.ok.inj (hgate.symm.trans hpasses))
        obtain ⟨command, hcommand, -⟩ := bind_eq_ok.mp h
        exact ⟨command, hcommand⟩
      · rintro ⟨⟨⟨notes, sent⟩, hgate⟩, hsigned⟩
        cases sent with
        | none => exact ⟨_, (notes, none), hgate, rfl⟩
        | some payload =>
            obtain ⟨command, hcommand⟩ := hsigned notes payload hgate
            exact ⟨_, (notes, some payload), hgate,
              bind_eq_ok.mpr ⟨command, hcommand, rfl⟩⟩

/-- The expression takes in a minute that the search reaches, and every time
on the way to it can be written in a calendar. -/
def HasNextRun (env : SchedulerEnv) (now : Int) (task : ScheduledTask) : Prop :=
  InRange (now + (getTz env.zones task.timezone).offset now) ∧
  InRange (now + (getTz env.zones task.timezone).offset now
    + microsPerMinute) ∧
  ∃ k, NextMinute env now task k ∧ InRange (minuteInstant env now task k)

theorem nextRunAfter_isOk_iff {task : ScheduledTask} :
    (∃ next, nextRunAfter env now task = .ok next) ↔ HasNextRun env now task := by
  simp only [nextRunAfter_eq_ok, HasNextRun]
  constructor
  · rintro ⟨next, hwall, hminute, k, hk, hin, -⟩
    exact ⟨hwall, hminute, k, hk, hin⟩
  · rintro ⟨hwall, hminute, k, hk, hin⟩
    exact ⟨_, hwall, hminute, k, hk, hin, rfl⟩

/-- What the turn of a task needs: a next run, and unless it is refused or
skipped as a whole, that it is ready at each of its agents, in the session as
the agents before have left it. -/
def TurnReady (env : SchedulerEnv) (now : Int) (s : PassState)
    (task : ScheduledTask) : Prop :=
  HasNextRun env now task ∧
    (isPowerOperation task.kind = false → skipsMisfire task now = false →
      ∀ before agent after,
        targetAgents s.tables.fleet task = before ++ agent :: after →
          ∀ s', before.foldlM (agentTurn env now task) (s, []) = .ok s' →
            AgentReady env now task s'.1.tables.fleet agent)

theorem taskTurn_isOk_iff {s : PassState} {task : ScheduledTask} :
    (∃ s', taskTurn env now s task = .ok s') ↔ TurnReady env now s task := by
  unfold taskTurn TurnReady
  rw [← nextRunAfter_isOk_iff]
  split
  · next hpower =>
    simp only [bind_eq_ok, hpower, Bool.true_eq_false, false_imp_iff, and_true]
    constructor
    · rintro ⟨s', next, hnext, -⟩
      exact ⟨next, hnext⟩
    · rintro ⟨next, hnext⟩
      exact ⟨_, next, hnext, rfl⟩
  · next hordinary =>
    split
    · next hlate =>
      simp only [bind_eq_ok, hlate, Bool.true_eq_false, false_imp_iff,
        implies_true, and_true]
      constructor
      · rintro ⟨s', next, hnext, -⟩
        exact ⟨next, hnext⟩
      · rintro ⟨next, hnext⟩
        exact ⟨_, next, hnext, rfl⟩
    · next htimely =>
      simp only [hordinary, htimely, forall_const, ← agentTurn_isOk_iff,
        ← foldlM_isOk_iff, bind_eq_ok]
      constructor
      · rintro ⟨s', ⟨t, outcomes⟩, hloop, next, hnext, -⟩
        exact ⟨⟨next, hnext⟩, _, hloop⟩
      · rintro ⟨⟨next, hnext⟩, ⟨t, outcomes⟩, hloop⟩
        exact ⟨_, (t, outcomes), hloop, next, hnext, rfl⟩

/-! ## A pass -/

/-- A pass does not raise, and every due task has its turn in it. -/
structure PassIsolated (env : SchedulerEnv) (now : Int)
    (tables : SchedulerTables) : Prop where
  completes : ∃ stored, dispatchScheduledTasksOnce env now tables = .ok stored
  processed : ∃ s, runPass env now tables = .ok s ∧
    ∀ task ∈ dueTasks tables now, ∃ row ∈ s.tables.tasks,
      row.id = task.id ∧ row.lastRunAt = some now

theorem dispatch_isOk_iff {tables : SchedulerTables} :
    (∃ stored, dispatchScheduledTasksOnce env now tables = .ok stored) ↔
      ∃ s, runPass env now tables = .ok s := by
  simp only [dispatchScheduledTasksOnce, bind_eq_ok]
  constructor
  · rintro ⟨stored, s, hs, -⟩
    exact ⟨s, hs⟩
  · rintro ⟨s, hs⟩
    exact ⟨_, s, hs, rfl⟩

theorem passIsolated_iff_completes {tables : SchedulerTables} :
    PassIsolated env now tables ↔ ∃ s, runPass env now tables = .ok s := by
  constructor
  · exact fun h => dispatch_isOk_iff.mp h.completes
  · rintro ⟨s, hs⟩
    refine ⟨dispatch_isOk_iff.mpr ⟨s, hs⟩, s, hs, fun task htask => ?_⟩
    obtain ⟨next, -, row, hrow, hid, -, hlast⟩ := runPass_ran hs task htask
    exact ⟨row, hrow, hid, hlast⟩

/-- A pass leaves its tasks to themselves just when each due task is ready for
its turn, in the session as the tasks before have left it. -/
theorem passIsolated_iff {tables : SchedulerTables} :
    PassIsolated env now tables ↔
      ∀ before task after, dueTasks tables now = before ++ task :: after →
        ∀ s, before.foldlM (taskTurn env now) { tables := tables } = .ok s →
          TurnReady env now s task := by
  simp only [passIsolated_iff_completes, runPass, foldlM_isOk_iff,
    taskTurn_isOk_iff]

/-! ## A payload that cannot be signed -/

/-- The JSON object `{"x": 1.5}`. -/
def floatPayload : PyDict :=
  ⟨[(py "x", .num (.float (py "1.5")))], by simp⟩

/-- A task as `POST /scheduled-tasks` takes it. -/
def minutelyBody (name : String) (kind : CommandKind) (payload : PyDict) :
    ScheduledTaskCreate where
  name := name
  targetType := .agent
  targetID := "agent-1"
  cronExpression := "* * * * *"
  kind := kind
  payload := payload

def platformOperator : Operator where
  id := "operator-1"
  email := "operator@example.com"
  role := .operator
  disabled := false
  isPlatformAdmin := true
  scriptExecutionScope := none
  scriptExecutionScopeID := none

theorem minutely_next : (computeNextRun plainEnv.foreignDigit plainEnv.zones
    (strip "* * * * *") "UTC" (leapNoon - microsPerMinute)).toOption =
      some leapNoon := by decide +kernel

theorem minutelyBody_valid {name : String} {kind : CommandKind}
    {payload : PyDict} (hname : 1 ≤ name.length ∧ name.length ≤ 200)
    (hkind : isPowerOperation kind = false) :
    (minutelyBody name kind payload).valid plainEnv.foreignDigit = true := by
  have hcron : validateCronExpression plainEnv.foreignDigit "* * * * *" = true := by
    decide +kernel
  have hallowed : (!isPowerOperation kind) = true := by rw [hkind]; rfl
  have htarget : 1 ≤ "agent-1".length ∧ "agent-1".length ≤ 36 := by decide
  have hlength : 5 ≤ "* * * * *".length ∧ "* * * * *".length ≤ 100 := by decide
  have hzone : 1 ≤ "UTC".length ∧ "UTC".length ≤ 100 := by decide
  simp only [ScheduledTaskCreate.valid, Bool.and_eq_true]
  exact ⟨⟨⟨⟨⟨⟨⟨decide_eq_true hname, rfl⟩, decide_eq_true htarget⟩,
    decide_eq_true hlength⟩, decide_eq_true hzone⟩, rfl⟩, hcron⟩, hallowed⟩

/-- The endpoint stores the row. -/
theorem minutely_stored {id : String} {kind : CommandKind} {payload : PyDict}
    (hid : 1 ≤ id.length ∧ id.length ≤ 200)
    (hkind : isPowerOperation kind = false) :
    createScheduledTask plainEnv (plainFleet []) platformOperator id
      (minutelyBody id kind payload) (leapNoon - microsPerMinute) =
        .ok (minutely id kind payload) := by
  rw [createScheduledTask, minutelyBody_valid hid hkind]
  have hstrip : strip "* * * * *" = "* * * * *" := by decide +kernel
  have hnext := eq_ok_of_toOption minutely_next
  simp only [minutelyBody, hnext]
  simp only [hstrip]
  rfl

/-- A task whose payload holds a float, before one with nothing wrong. -/
def floatTables : SchedulerTables where
  tasks := [minutely "task-1" .collectInventory floatPayload,
    minutely "task-2" .scanUpdates emptyPayload]
  fleet := plainFleet []
  audit := []
  tasks_unique := by decide

/-- The same tables without the first task. -/
def soundTables : SchedulerTables where
  tasks := [minutely "task-2" .scanUpdates emptyPayload]
  fleet := plainFleet []
  audit := []
  tasks_unique := List.nodup_singleton _

theorem floatPayload_refused :
    (validateCommandPayload floatPayload.payload).toOption = none := by
  decide +kernel

theorem soundTables_pass :
    (runPass plainEnv leapNoon soundTables).toOption.isSome = true := by
  decide +kernel

theorem floatTables_raise {later : Int} (hlater : leapNoon ≤ later) :
    ¬ ∃ s, runPass plainEnv later floatTables = .ok s := by
  rw [runPass, foldlM_isOk_iff]
  intro hturns
  have hdue : dueTasks floatTables later = [] ++
      minutely "task-1" .collectInventory floatPayload ::
        [minutely "task-2" .scanUpdates emptyPayload] := by
    simp [dueTasks, floatTables, minutely, hlater]
  have hready := taskTurn_isOk_iff.mp
    (hturns [] _ _ hdue { tables := floatTables } (foldlM_nil_eq_ok.mpr rfl))
  have hrunOnce : skipsMisfire (minutely "task-1" .collectInventory floatPayload)
      later = false := by simp [skipsMisfire, minutely]
  have hagent := hready.2 rfl hrunOnce [] onlyAgent []
    (by decide +kernel) _ (foldlM_nil_eq_ok.mpr rfl)
  obtain ⟨-, bytes, hsigned⟩ := (hagent rfl rfl).2 [] floatPayload rfl
  have haccepted := (accepted_of_ok hsigned).payload
  have hrefused := floatPayload_refused
  rw [show (envelopeFor plainEnv later
    (minutely "task-1" .collectInventory floatPayload) onlyAgent floatPayload
    _).payload = floatPayload.payload from rfl] at haccepted
  rw [haccepted] at hrefused
  cases hrefused

/-- The endpoint takes both tasks, and the second by itself has its turn; with
the first one stored beside it no pass gets to its end, now or later. -/
theorem float_payload_blocks_others :
    createScheduledTask plainEnv (plainFleet []) platformOperator "task-1"
        (minutelyBody "task-1" .collectInventory floatPayload)
        (leapNoon - microsPerMinute) =
      .ok (minutely "task-1" .collectInventory floatPayload) ∧
    createScheduledTask plainEnv (plainFleet []) platformOperator "task-2"
        (minutelyBody "task-2" .scanUpdates emptyPayload)
        (leapNoon - microsPerMinute) =
      .ok (minutely "task-2" .scanUpdates emptyPayload) ∧
    PassIsolated plainEnv leapNoon soundTables ∧
    ∀ later, leapNoon ≤ later → ¬ PassIsolated plainEnv later floatTables := by
  refine ⟨minutely_stored (by decide) rfl, minutely_stored (by decide) rfl,
    ?_, fun later hlater hisolated => ?_⟩
  · rw [passIsolated_iff_completes]
    have hpass := soundTables_pass
    cases hrun : runPass plainEnv leapNoon soundTables with
    | error e => rw [hrun] at hpass; cases hpass
    | ok s => exact ⟨s, rfl⟩
  · exact floatTables_raise hlater (passIsolated_iff_completes.mp hisolated)

end NodeLink.Proofs
