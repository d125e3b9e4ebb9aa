import NodeLink.Agent.CheckHysteresis
import NodeLink.Lib.Debounce
import NodeLink.Proofs.ServerOwnedChecks

/-!
# The hysteresis of the agent and of the server

Both keep a status and a pending change, the agent in the state of a check and
the server in the row and the detail of the last result. Both follow one
debounced status, from the unknown one where there is nothing yet, so they give
the same statuses. What it counts are the samples in a row of one severity:
samples that all breach, but not in the same way, need not raise anything.
-/

namespace NodeLink.Proofs.CheckHysteresis

open Lib

/-- The samples in a row that a change of status takes. -/
def required (hysteresis : Server.Hysteresis)
    (current raw : Server.CheckResultStatus) : Nat :=
  if raw = .unknown ∨ current = .unknown ∧ raw = .ok then 1
  else if raw.severity > current.severity then hysteresis.raiseSamples
  else hysteresis.clearSamples

/-! ## The two runs -/

/-- How a result is stored, as the next sample of the check finds it. Whatever
else a row and its detail hold, they hold the status and the transition. -/
structure ResultStore where
  store : Server.Stable → Server.CheckResult × Server.ResultDetail
  status : ∀ stable, (store stable).1.status = stable.status
  hysteresis : ∀ stable,
    PyValue.get ((store stable).2.getD []) "hysteresis" = some stable.detail

/-- The statuses of the server for a sequence of samples; nothing where one of
them raises. -/
def serverStatuses (env : Server.EvaluatorEnv) (definition : Server.CheckDefinition)
    (results : ResultStore) :
    Option (Server.CheckResult × Server.ResultDetail) →
      List Server.CheckResultStatus → Option (List Server.CheckResultStatus)
  | _, [] => some []
  | previous, raw :: raws =>
    (Server.applyHysteresis env raw definition previous).bind fun stable =>
      (serverStatuses env definition results (some (results.store stable))
        raws).map (stable.status :: ·)

/-- The statuses of the agent for a sequence of samples. -/
def agentStatuses (hysteresis : Agent.Evaluator.Hysteresis) :
    Agent.Evaluator.CheckState → List String → List String
  | _, [] => []
  | state, raw :: raws =>
    (Agent.Evaluator.applyHysteresis raw state hysteresis).1 ::
      agentStatuses hysteresis
        (Agent.Evaluator.applyHysteresis raw state hysteresis).2 raws

/-- The agent's copy of the check's hysteresis. -/
def agentHysteresis (hysteresis : Server.Hysteresis) : Agent.Evaluator.Hysteresis where
  raiseSamples := hysteresis.raiseSamples
  clearSamples := hysteresis.clearSamples

/-! ## The state of either side -/

/-- The agent's state of a check. -/
def AgentHolds (d : Debounced Server.CheckResultStatus)
    (state : Agent.Evaluator.CheckState) : Prop :=
  state = {} ∧ d = { status := .unknown } ∨
    state.status = d.status.text ∧
      match d.pending with
      | none => state.pendingStatus = ""
      | some (raw, n) => state.pendingStatus = raw.text ∧ state.pendingCount = n

/-- The server's last result of a check. -/
def ServerHolds (env : Server.EvaluatorEnv) (d : Debounced Server.CheckResultStatus) :
    Option (Server.CheckResult × Server.ResultDetail) → Prop
  | none => d = { status := .unknown }
  | some (row, detail) =>
    row.status = d.status ∧
      match d.pending with
      | none => ∃ n, env.priorHysteresis detail = some (.null, n)
      | some (raw, n) => env.priorHysteresis detail = some (.str raw.text, (n : Int))

/-- What the server reports of a debounced status. -/
def stableOf (d : Debounced Server.CheckResultStatus) : Server.Stable where
  status := d.status
  pendingStatus := d.pending.map (·.1)
  pendingCount := d.pending.elim 0 fun p => p.2

section Steps

variable {hysteresis : Server.Hysteresis} {d : Debounced Server.CheckResultStatus}
  {raw current : Server.CheckResultStatus}

theorem text_injective {a b : Server.CheckResultStatus} (h : a.text = b.text) :
    a = b := by
  cases a <;> cases b <;> first | rfl | exact absurd h (by decide)

theorem text_ne_empty (a : Server.CheckResultStatus) : a.text ≠ "" := by
  cases a <;> decide

theorem count_pos : 1 ≤ d.count raw := by
  unfold Debounced.count
  split
  · exact Nat.le_refl 1
  · split <;> omega

theorem step_unknown :
    d.step (required hysteresis) .unknown = { status := .unknown } := by
  by_cases h : Server.CheckResultStatus.unknown = d.status
  · rw [Debounced.step_same h, ← h]
  · exact Debounced.step_changes h count_pos

theorem required_cast (hraw : raw ≠ .unknown) :
    (required hysteresis current raw : Int) =
      Server.requiredSamples hysteresis current raw := by
  unfold required Server.requiredSamples
  simp only [or_iff_right hraw]
  split
  · rfl
  · split <;> rfl

/-- From nothing, the first sample counts at once where one is enough. -/
theorem step_start (hraw : raw ≠ .unknown) (hraise : 1 ≤ hysteresis.raiseSamples) :
    Debounced.step (required hysteresis) { status := .unknown } raw =
      if (raw = .warning ∨ raw = .critical) ∧ hysteresis.raiseSamples ≠ 1 then
        { status := .unknown, pending := some (raw, 1) }
      else { status := raw } := by
  by_cases hok : raw = .ok
  · rw [if_neg (fun h => absurd (hok ▸ h.1) (by decide)), hok]
    exact Debounced.step_changes (by decide) (Nat.le_refl 1)
  · have hbad : raw = .warning ∨ raw = .critical := by
      cases raw with
      | ok => exact absurd rfl hok
      | warning => exact .inl rfl
      | critical => exact .inr rfl
      | unknown => exact absurd rfl hraw
    have hrequired : required hysteresis .unknown raw = hysteresis.raiseSamples := by
      rcases hbad with rfl | rfl <;> rfl
    by_cases hone : hysteresis.raiseSamples = 1
    · rw [if_neg (fun h => h.2 hone)]
      exact Debounced.step_changes hraw (by rw [hrequired, hone]; exact Nat.le_refl 1)
    · rw [if_pos ⟨hbad, hone⟩]
      refine Debounced.step_waits hraw ?_
      rw [hrequired]
      show ¬ hysteresis.raiseSamples ≤ 1
      omega

/-! ## The server -/

variable {env : Server.EvaluatorEnv} {definition : Server.CheckDefinition}
  {results : ResultStore}
  {previous : Option (Server.CheckResult × Server.ResultDetail)}

theorem eq_text_iff {a b : Server.CheckResultStatus} :
    PyValue.eq (.str a.text) (.str b.text) = true ↔ a = b := by
  rw [PyValue.eq, beq_iff_eq]
  exact ⟨text_injective, fun h => by rw [h]⟩

/-- The count the server goes on from, in the detail. -/
theorem prior_count {detail : Server.ResultDetail}
    (h : match d.pending with
      | none => ∃ n, env.priorHysteresis detail = some (.null, n)
      | some (raw, n) =>
        env.priorHysteresis detail = some (.str raw.text, (n : Int))) :
    ∃ prior, env.priorHysteresis detail = some prior ∧
      (if PyValue.eq prior.1 (.str raw.text) then prior.2 + 1 else 1) =
        (d.count raw : Int) := by
  unfold Debounced.count
  cases hpending : d.pending with
  | none =>
      rw [hpending] at h
      obtain ⟨n, hn⟩ := h
      exact ⟨_, hn, rfl⟩
  | some p =>
      rw [hpending] at h
      refine ⟨_, h, ?_⟩
      by_cases heq : p.1 = raw
      · rw [if_pos (eq_text_iff.mpr heq)]
        simp [heq]
      · rw [if_neg (fun h => heq (eq_text_iff.mp h))]
        simp [heq]

theorem server_step (h : ServerHolds env d previous)
    (hraise : 1 ≤ definition.hysteresis.raiseSamples) :
    Server.applyHysteresis env raw definition previous =
      some (stableOf (d.step (required definition.hysteresis) raw)) := by
  unfold Server.applyHysteresis
  by_cases hraw : raw = .unknown
  · rw [if_pos hraw, hraw, step_unknown]
    rfl
  rw [if_neg hraw]
  cases previous with
  | none =>
      have hd : d = { status := .unknown } := h
      rw [hd, step_start hraw hraise]
      dsimp only
      split_ifs <;> rfl
  | some p =>
      obtain ⟨hstatus, hpending⟩ := h
      by_cases hsame : raw = d.status
      · rw [Debounced.step_same hsame]
        simp only [hstatus, hsame, if_true]
        rfl
      · obtain ⟨prior, hprior, hcount⟩ := @prior_count d raw _ _ hpending
        simp only [hstatus, if_neg hsame, hprior, Option.map_some, hcount,
          ← required_cast hraw, ge_iff_le, Int.ofNat_le]
        by_cases henough : required definition.hysteresis d.status raw ≤ d.count raw
        · rw [if_pos henough, Debounced.step_changes hsame henough]
          rfl
        · rw [if_neg henough, Debounced.step_waits hsame henough]
          rfl

theorem server_start : ServerHolds env { status := .unknown } none := rfl

/-- What is stored of a debounced status is found again. -/
theorem server_stores :
    ServerHolds env d (some (results.store (stableOf d))) := by
  refine ⟨results.status (stableOf d), ?_⟩
  have hdetail := results.hysteresis (stableOf d)
  cases hpending : d.pending with
  | none =>
      refine ⟨0, ?_⟩
      rw [Server.EvaluatorEnv.priorHysteresis, hdetail]
      simp [Server.Stable.detail, stableOf, hpending, PyValue.get,
        Server.EvaluatorEnv.count]
  | some p =>
      rw [Server.EvaluatorEnv.priorHysteresis, hdetail]
      simp [Server.Stable.detail, stableOf, hpending, PyValue.get,
        Server.EvaluatorEnv.count]

theorem server_run (h : ServerHolds env d previous)
    (hraise : 1 ≤ definition.hysteresis.raiseSamples)
    (samples : List Server.CheckResultStatus) :
    serverStatuses env definition results previous samples =
      some (d.statuses (required definition.hysteresis) samples) := by
  induction samples generalizing d previous with
  | nil => rfl
  | cons raw samples ih =>
      rw [serverStatuses, server_step h hraise, Option.bind_some, ih server_stores]
      rfl

/-! ## The agent -/

variable {state : Agent.Evaluator.CheckState}

theorem text_eq_iff {a b : Server.CheckResultStatus} : a.text = b.text ↔ a = b :=
  ⟨text_injective, fun h => by rw [h]⟩

theorem severity_text (a : Server.CheckResultStatus) :
    Agent.Evaluator.severity a.text = a.severity := by
  cases a <;> decide

theorem requiredSamples_text :
    Agent.Evaluator.requiredSamples
        ⟨hysteresis.raiseSamples, hysteresis.clearSamples⟩ current.text raw.text =
      Server.requiredSamples hysteresis current raw := by
  unfold Agent.Evaluator.requiredSamples Server.requiredSamples
  have hunknown : current.text = "unknown" ↔ current = .unknown :=
    @text_eq_iff current .unknown
  have hok : raw.text = "ok" ↔ raw = .ok := @text_eq_iff raw .ok
  simp only [severity_text, hunknown, hok]

theorem text_ne_unknown (h : raw ≠ .unknown) : raw.text ≠ "unknown" :=
  fun he => h (@text_injective raw .unknown he)

/-- The count the agent goes on from. -/
theorem pending_count
    (h : match d.pending with
      | none => state.pendingStatus = ""
      | some (raw, n) => state.pendingStatus = raw.text ∧ state.pendingCount = n) :
    (if state.pendingStatus = raw.text then state.pendingCount + 1 else 1) =
      (d.count raw : Int) := by
  unfold Debounced.count
  cases hpending : d.pending with
  | none =>
      rw [hpending] at h
      rw [if_neg (fun he => text_ne_empty raw (he.symm.trans h))]
      rfl
  | some p =>
      rw [hpending] at h
      obtain ⟨hstatus, hcount⟩ := h
      rw [hstatus, hcount]
      by_cases heq : p.1 = raw
      · simp [heq]
      · rw [if_neg (fun he => heq (text_injective he))]
        simp [heq]

theorem agent_unknown :
    AgentHolds { status := .unknown }
      { status := "unknown", pendingStatus := "", pendingCount := 0 } :=
  .inr ⟨rfl, rfl⟩

theorem agent_step (h : AgentHolds d state) (hraise : 1 ≤ hysteresis.raiseSamples)
    (hclear : 1 ≤ hysteresis.clearSamples) :
    (Agent.Evaluator.applyHysteresis raw.text state
        (agentHysteresis hysteresis)).1 =
        (d.step (required hysteresis) raw).status.text ∧
      AgentHolds (d.step (required hysteresis) raw)
        (Agent.Evaluator.applyHysteresis raw.text state
          (agentHysteresis hysteresis)).2 := by
  have hraise' : max (hysteresis.raiseSamples : Int) 1 = hysteresis.raiseSamples := by
    omega
  have hclear' : max (hysteresis.clearSamples : Int) 1 = hysteresis.clearSamples := by
    omega
  unfold Agent.Evaluator.applyHysteresis
  simp only [agentHysteresis, hraise', hclear']
  by_cases hraw : raw = .unknown
  · rw [hraw, step_unknown]
    exact ⟨rfl, agent_unknown⟩
  rw [if_neg (text_ne_unknown hraw)]
  rcases h with ⟨rfl, rfl⟩ | ⟨hstatus, hpending⟩
  · rw [if_pos rfl, step_start hraw hraise]
    have hbad : raw.text = "warning" ∨ raw.text = "critical" ↔
        raw = .warning ∨ raw = .critical :=
      or_congr (@text_eq_iff raw .warning) (@text_eq_iff raw .critical)
    have hone : (hysteresis.raiseSamples : Int) ≠ 1 ↔ hysteresis.raiseSamples ≠ 1 := by
      omega
    simp only [hbad, hone]
    split
    · exact ⟨rfl, .inr ⟨rfl, rfl, rfl⟩⟩
    · exact ⟨rfl, .inr ⟨rfl, rfl⟩⟩
  · rw [hstatus, if_neg (text_ne_empty d.status)]
    by_cases hsame : raw = d.status
    · rw [if_pos (text_eq_iff.mpr hsame), Debounced.step_same hsame]
      exact ⟨rfl, .inr ⟨rfl, rfl⟩⟩
    · rw [if_neg (fun he => hsame (text_injective he)), Agent.Evaluator.changeStatus]
      simp only [hstatus, pending_count hpending,
        requiredSamples_text, ← required_cast hraw, ge_iff_le, Int.ofNat_le]
      by_cases henough : required hysteresis d.status raw ≤ d.count raw
      · rw [if_pos henough, Debounced.step_changes hsame henough]
        exact ⟨rfl, .inr ⟨rfl, rfl⟩⟩
      · rw [if_neg henough, Debounced.step_waits hsame henough]
        exact ⟨rfl, .inr ⟨rfl, rfl, rfl⟩⟩

theorem agent_run (h : AgentHolds d state) (hraise : 1 ≤ hysteresis.raiseSamples)
    (hclear : 1 ≤ hysteresis.clearSamples)
    (samples : List Server.CheckResultStatus) :
    agentStatuses (agentHysteresis hysteresis) state (samples.map (·.text)) =
      (d.statuses (required hysteresis) samples).map (·.text) := by
  induction samples generalizing d state with
  | nil => rfl
  | cons raw samples ih =>
      obtain ⟨hstatus, hholds⟩ := agent_step h hraise hclear
      rw [List.map_cons, agentStatuses, hstatus, ih hholds]
      rfl

/-! ## Agreement -/

/-- From the same state, with the same samples, the agent and the server come to
the same statuses. -/
theorem hysteresis_agrees (env : Server.EvaluatorEnv)
    (definition : Server.CheckDefinition) (results : ResultStore)
    (hraise : 1 ≤ definition.hysteresis.raiseSamples)
    (hclear : 1 ≤ definition.hysteresis.clearSamples)
    (d : Debounced Server.CheckResultStatus)
    (previous : Option (Server.CheckResult × Server.ResultDetail))
    (hprevious : ServerHolds env d previous) (state : Agent.Evaluator.CheckState)
    (hstate : AgentHolds d state) (samples : List Server.CheckResultStatus) :
    ∃ statuses,
      serverStatuses env definition results previous samples = some statuses ∧
        agentStatuses (agentHysteresis definition.hysteresis) state
          (samples.map (·.text)) = statuses.map (·.text) :=
  ⟨d.statuses (required definition.hysteresis) samples,
   server_run hprevious hraise samples, agent_run hstate hraise hclear samples⟩

end Steps

/-! ## Raising and clearing -/

/-- The status of the server after the samples of a check. -/
def serverStatus (env : Server.EvaluatorEnv) (definition : Server.CheckDefinition)
    (results : ResultStore) (samples : List Server.CheckResultStatus) :
    Option Server.CheckResultStatus :=
  (serverStatuses env definition results none samples).bind List.getLast?

/-- The status of the agent after the samples of a check. -/
def agentStatus (definition : Server.CheckDefinition)
    (samples : List Server.CheckResultStatus) : Option String :=
  (agentStatuses (agentHysteresis definition.hysteresis) {}
    (samples.map (·.text))).getLast?

def Breaching (raw : Server.CheckResultStatus) : Prop :=
  raw = .warning ∨ raw = .critical

/-- A window of `n` samples that breach, after a status of ok. -/
structure Breached {τ : Type} (text : Server.CheckResultStatus → τ)
    (status : List Server.CheckResultStatus → Option τ) (n : Nat)
    (history window : List Server.CheckResultStatus) : Prop where
  length : window.length = n
  breaching : ∀ raw ∈ window, Breaching raw
  before : status history = some (text .ok)

/-- After enough samples that breach the status is failing, and after enough
that do not it is ok. -/
structure Follows {τ : Type} (text : Server.CheckResultStatus → τ)
    (status : List Server.CheckResultStatus → Option τ)
    (hysteresis : Server.Hysteresis)
    (history window : List Server.CheckResultStatus) : Prop where
  raises : Breached text status hysteresis.raiseSamples history window →
    ∃ raw, Breaching raw ∧ status (history ++ window) = some (text raw)
  clears : window.length = hysteresis.clearSamples → (∀ raw ∈ window, raw = .ok) →
    status (history ++ window) = some (text .ok)

/-- One of the samples of a window ends a row of `n` of the same severity. -/
def RowEnds (n : Nat) (history window : List Server.CheckResultStatus) : Prop :=
  ∃ k < window.length, ∃ raw,
    List.replicate n raw <:+ history ++ window.take (k + 1)

section Raises

variable {hysteresis : Server.Hysteresis}

theorem required_pos (hraise : 1 ≤ hysteresis.raiseSamples)
    (hclear : 1 ≤ hysteresis.clearSamples) (current raw : Server.CheckResultStatus) :
    0 < required hysteresis current raw := by
  unfold required
  split
  · exact Nat.one_pos
  · split
    · exact hraise
    · exact hclear

theorem required_breaching {raw : Server.CheckResultStatus} (h : Breaching raw) :
    required hysteresis .ok raw = hysteresis.raiseSamples := by
  rcases h with rfl | rfl <;> rfl

theorem required_ok_le (hclear : 1 ≤ hysteresis.clearSamples)
    (current : Server.CheckResultStatus) :
    required hysteresis current .ok ≤ hysteresis.clearSamples := by
  cases current with
  | unknown => exact hclear
  | ok => exact Nat.le_refl _
  | warning => exact Nat.le_refl _
  | critical => exact Nat.le_refl _

variable {τ : Type} {text : Server.CheckResultStatus → τ}
  {status : List Server.CheckResultStatus → Option τ}
  {history window : List Server.CheckResultStatus}

/-- A side reports the debounced status once there is one. -/
structure Reports (text : Server.CheckResultStatus → τ)
    (status : List Server.CheckResultStatus → Option τ)
    (hysteresis : Server.Hysteresis) : Prop where
  injective : ∀ a b, text a = text b → a = b
  nothing : status [] = none
  after : ∀ samples, samples ≠ [] → status samples = some
    (text (Debounced.run (required hysteresis) { status := .unknown } samples).status)

theorem counts_history (history : List Server.CheckResultStatus) :
    Debounced.Counts (required hysteresis)
      (Debounced.run (required hysteresis) { status := .unknown } history) history :=
  (@Debounced.counts_start _ (required hysteresis) .unknown).run history

/-- Samples that breach raise a status of ok exactly when one of them ends a row
of one severity that is long enough. -/
theorem Reports.raises_iff (h : Reports text status hysteresis)
    (hraise : 1 ≤ hysteresis.raiseSamples) (hclear : 1 ≤ hysteresis.clearSamples)
    (hbreached : Breached text status hysteresis.raiseSamples history window) :
    (∃ raw, Breaching raw ∧ status (history ++ window) = some (text raw)) ↔
      RowEnds hysteresis.raiseSamples history window := by
  have hhistory : history ≠ [] := by
    rintro rfl
    exact absurd (h.nothing.symm.trans hbreached.before) nofun
  have hok : (Debounced.run (required hysteresis) { status := .unknown }
      history).status = .ok :=
    h.injective _ _
      (Option.some.inj ((h.after history hhistory).symm.trans hbreached.before))
  have henters := (counts_history history).run_enters_iff
    (required_pos hraise hclear) (by rw [hok]; nofun) hbreached.breaching
    (fun raw hraw => by rw [hok, required_breaching hraw])
  rw [RowEnds, ← henters, h.after (history ++ window)
    (List.append_ne_nil_of_left_ne_nil hhistory window), Debounced.run_append]
  constructor
  · rintro ⟨raw, hraw, hsome⟩
    rwa [h.injective _ _ (Option.some.inj hsome)]
  · intro hraw
    exact ⟨_, hraw, rfl⟩

theorem Reports.clears (h : Reports text status hysteresis)
    (hclear : 1 ≤ hysteresis.clearSamples)
    (hlength : window.length = hysteresis.clearSamples)
    (hwindow : ∀ raw ∈ window, raw = .ok) :
    status (history ++ window) = some (text .ok) := by
  obtain ⟨n, hn⟩ := Nat.exists_eq_add_of_le' hclear
  have hreplicate : window = List.replicate (n + 1) .ok :=
    List.eq_replicate_iff.mpr ⟨hlength.trans hn, hwindow⟩
  have hrun := (counts_history history).run_replicate
    fun s => hn ▸ required_ok_le hclear s
  rw [h.after _ (by simp [hreplicate]), Debounced.run_append, hreplicate, hrun]

/-- Whatever reports the debounced status follows its samples exactly as far as
the samples that breach come in rows of one severity. -/
theorem Reports.follows_iff (h : Reports text status hysteresis)
    (hraise : 1 ≤ hysteresis.raiseSamples) (hclear : 1 ≤ hysteresis.clearSamples) :
    Follows text status hysteresis history window ↔
      (Breached text status hysteresis.raiseSamples history window →
        RowEnds hysteresis.raiseSamples history window) := by
  constructor
  · intro hfollows hbreached
    exact (h.raises_iff hraise hclear hbreached).mp (hfollows.raises hbreached)
  · intro hrow
    exact ⟨fun hbreached =>
      (h.raises_iff hraise hclear hbreached).mpr (hrow hbreached), h.clears hclear⟩

variable {env : Server.EvaluatorEnv} {definition : Server.CheckDefinition}
  {results : ResultStore}

theorem server_reports (hraise : 1 ≤ definition.hysteresis.raiseSamples) :
    Reports id (serverStatus env definition results) definition.hysteresis where
  injective _ _ h := h
  nothing := rfl
  after samples hne := by
    rw [serverStatus, server_run server_start hraise, Option.bind_some,
      Debounced.statuses_getLast? hne]
    rfl

theorem agent_reports (hraise : 1 ≤ definition.hysteresis.raiseSamples)
    (hclear : 1 ≤ definition.hysteresis.clearSamples) :
    Reports (·.text) (agentStatus definition) definition.hysteresis where
  injective _ _ h := text_injective h
  nothing := rfl
  after samples hne := by
    rw [agentStatus, agent_run (.inl ⟨rfl, rfl⟩) hraise hclear, List.getLast?_map,
      Debounced.statuses_getLast? hne]
    rfl

/-- On either side, and for every window after every history: the status follows
the samples exactly when samples that all breach, and are as many as raising
takes, end a row of one severity that is as long. -/
theorem hysteresis_raises_iff (env : Server.EvaluatorEnv)
    (definition : Server.CheckDefinition) (results : ResultStore)
    (hraise : 1 ≤ definition.hysteresis.raiseSamples)
    (hclear : 1 ≤ definition.hysteresis.clearSamples)
    (history window : List Server.CheckResultStatus) :
    (Follows id (serverStatus env definition results) definition.hysteresis
        history window ↔
      (Breached id (serverStatus env definition results)
          definition.hysteresis.raiseSamples history window →
        RowEnds definition.hysteresis.raiseSamples history window)) ∧
    (Follows (·.text) (agentStatus definition) definition.hysteresis history window ↔
      (Breached (·.text) (agentStatus definition)
          definition.hysteresis.raiseSamples history window →
        RowEnds definition.hysteresis.raiseSamples history window)) :=
  ⟨(server_reports hraise).follows_iff hraise hclear,
   (agent_reports hraise hclear).follows_iff hraise hclear⟩

end Raises

/-! ## A load that alternates -/

/-- A check that raises, and clears, with the second sample. -/
def twoSamples : Server.CheckDefinition :=
  { MonitoringOutbox.cpuCheck with
    hysteresis := { raiseSamples := 2, clearSamples := 2 } }

def sampleResults : ResultStore where
  store stable :=
    ({ id := "r", agentID := "a", policyID := none, policyRevisionID := none
       checkKey := "cpu", status := stable.status, value := none, evaluatedAt := 0 },
     some [("hysteresis", stable.detail)])
  status _ := rfl
  hysteresis _ := rfl

def sampleRaws : List Server.CheckResultStatus :=
  [.ok, .critical, .critical, .unknown]

theorem hysteresis_agrees_sample :
    ∃ statuses,
      serverStatuses ServerOwnedChecks.sampleEvaluators twoSamples sampleResults none
          sampleRaws = some statuses ∧
        agentStatuses (agentHysteresis twoSamples.hysteresis) {}
          (sampleRaws.map (·.text)) = statuses.map (·.text) :=
  hysteresis_agrees ServerOwnedChecks.sampleEvaluators twoSamples sampleResults
    (by decide) (by decide) { status := .unknown } none server_start {}
    (.inl ⟨rfl, rfl⟩) sampleRaws

theorem hysteresis_raises_iff_sample :
    (Follows id
        (serverStatus ServerOwnedChecks.sampleEvaluators twoSamples sampleResults)
        twoSamples.hysteresis [.ok] [.critical, .critical] ↔
      (Breached id
          (serverStatus ServerOwnedChecks.sampleEvaluators twoSamples sampleResults)
          2 [.ok] [.critical, .critical] →
        RowEnds 2 [.ok] [.critical, .critical])) ∧
    (Follows (·.text) (agentStatus twoSamples) twoSamples.hysteresis [.ok]
        [.critical, .critical] ↔
      (Breached (·.text) (agentStatus twoSamples) 2 [.ok] [.critical, .critical] →
        RowEnds 2 [.ok] [.critical, .critical])) :=
  hysteresis_raises_iff ServerOwnedChecks.sampleEvaluators twoSamples sampleResults
    (by decide) (by decide) [.ok] [.critical, .critical]

theorem alternating_breaching :
    ∀ raw ∈ [Server.CheckResultStatus.warning, .critical], Breaching raw := by
  intro raw hraw
  cases hraw with
  | head => exact .inl rfl
  | tail _ h => exact .inr (List.mem_singleton.mp h)

/-- Two samples in a row breach, a warning and a critical one, and neither side
raises. -/
theorem alternating_not_raised :
    ¬ Follows id
        (serverStatus ServerOwnedChecks.sampleEvaluators twoSamples sampleResults)
        twoSamples.hysteresis [.ok] [.warning, .critical] ∧
      ¬ Follows (·.text) (agentStatus twoSamples) twoSamples.hysteresis [.ok]
        [.warning, .critical] := by
  constructor
  · intro h
    obtain ⟨raw, hraw, hstatus⟩ := h.raises ⟨rfl, alternating_breaching, rfl⟩
    have hok : serverStatus ServerOwnedChecks.sampleEvaluators twoSamples sampleResults
        [.ok, .warning, .critical] = some .ok := rfl
    rcases hraw with rfl | rfl <;> exact absurd (hok.symm.trans hstatus) (by decide)
  · intro h
    obtain ⟨raw, hraw, hstatus⟩ := h.raises ⟨rfl, alternating_breaching, rfl⟩
    have hok : agentStatus twoSamples [.ok, .warning, .critical] = some "ok" := rfl
    rcases hraw with rfl | rfl <;> exact absurd (hok.symm.trans hstatus) (by decide)

end NodeLink.Proofs.CheckHysteresis
