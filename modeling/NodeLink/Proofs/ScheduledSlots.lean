import Mathlib
import NodeLink.Lib.Loops
import NodeLink.Server.Scheduler

/-!
# Scheduled slots

What a pass of the scheduler stores. A session commits when a counter moved,
and the counters move for a power operation, a run skipped as too late, an
approval refusal and a command that is queued; they do not move for an agent
that is busy, a patch gate that blocks, or a task without an active agent.

As long as nothing is counted no command is queued, so each task is judged on
the tables the pass began with. Whether a pass commits can therefore be read
off those tables.
-/

namespace NodeLink.Proofs

open Lib Server Server.PatchPolicies Server.Scheduler

variable {env : SchedulerEnv} {now : Int}

/-! ## What a pass writes -/

theorem mem_write {tables : SchedulerTables} {row row' : ScheduledTask}
    (hrow : row.id ∈ tables.tasks.map (·.id)) :
    row' ∈ (tables.write row).tasks ↔
      row' = row ∨ row' ∈ tables.tasks ∧ row'.id ≠ row.id := by
  simp only [SchedulerTables.write, List.mem_map]
  constructor
  · rintro ⟨task, htask, rfl⟩
    split
    · exact .inl rfl
    · next hne => exact .inr ⟨htask, hne⟩
  · rintro (rfl | ⟨hmem, hne⟩)
    · obtain ⟨task, htask, hid⟩ := List.mem_map.mp hrow
      exact ⟨task, htask, if_pos hid⟩
    · exact ⟨row', hmem, if_neg hne⟩

/-- What one agent's turn does. -/
theorem agentTurn_cases {task : ScheduledTask} {agent : ManagedAgent}
    {s s' : PassState × List AgentOutcome}
    (h : agentTurn env now task s agent = .ok s') :
    (∃ policy, approvalPolicy s.1.tables.fleet task agent = some policy ∧
      s'.1 = { s.1.note [approvalNote task agent policy] with
        skipped := s.1.skipped + 1 }) ∨
    (approvalPolicy s.1.tables.fleet task agent = none ∧
      busy s.1.tables.fleet task agent = true ∧ s'.1 = s.1) ∨
    (approvalPolicy s.1.tables.fleet task agent = none ∧
      busy s.1.tables.fleet task agent = false ∧
      ∃ notes, patchGate env now s.1.tables.fleet task agent = .ok (notes, none) ∧
        s'.1 = s.1.note notes) ∨
    (approvalPolicy s.1.tables.fleet task agent = none ∧
      busy s.1.tables.fleet task agent = false ∧
      ∃ notes payload command,
        patchGate env now s.1.tables.fleet task agent =
          .ok (notes, some payload) ∧
        signedCommand env now task agent payload
          (env.drawn s.1.tables.fleet.commands.length) = .ok command ∧
        s'.1 = ((s.1.note notes).queue command).note
          [dispatchNote task agent command]) := by
  unfold agentTurn at h
  split at h
  · next policy hpolicy =>
    obtain rfl := Except.ok.inj h
    exact .inl ⟨policy, hpolicy, rfl⟩
  · next hpolicy =>
    split at h
    · next hbusy =>
      obtain rfl := Except.ok.inj h
      exact .inr (.inl ⟨hpolicy, hbusy, rfl⟩)
    · next hbusy =>
      have hfree : busy s.1.tables.fleet task agent = false := by
        simpa using hbusy
      obtain ⟨⟨notes, payload⟩, hgate, h⟩ := bind_eq_ok.mp h
      cases payload with
      | none =>
          obtain rfl := Except.ok.inj h
          exact .inr (.inr (.inl ⟨hpolicy, hfree, notes, hgate, rfl⟩))
      | some payload =>
          obtain ⟨command, hcommand, h⟩ := bind_eq_ok.mp h
          obtain rfl := Except.ok.inj h
          exact .inr (.inr (.inr
            ⟨hpolicy, hfree, notes, payload, command, hgate, hcommand, rfl⟩))

/-- An agent's turn writes no row of a task, and adds to the log. -/
theorem agentTurn_frame {task : ScheduledTask} {agent : ManagedAgent}
    {s s' : PassState × List AgentOutcome}
    (h : agentTurn env now task s agent = .ok s') :
    s'.1.tables.tasks = s.1.tables.tasks ∧
      s.1.tables.audit ⊆ s'.1.tables.audit := by
  obtain ⟨policy, -, hs⟩ | ⟨-, -, hs⟩ | ⟨-, -, notes, -, hs⟩ |
    ⟨-, -, notes, payload, command, -, -, hs⟩ := agentTurn_cases h
  all_goals rw [hs]
  · exact ⟨rfl, List.subset_append_left _ _⟩
  · exact ⟨rfl, List.Subset.refl _⟩
  · exact ⟨rfl, List.subset_append_left _ _⟩
  · exact ⟨rfl, fun note hnote =>
      List.mem_append_left _ (List.mem_append_left _ hnote)⟩

/-- The log names the task of every command that is not from `before`. -/
def CommandsNoted (due : List ScheduledTask) (before : List ScheduledCommand)
    (tables : SchedulerTables) : Prop :=
  ∀ command ∈ tables.fleet.commands, command ∈ before ∨
    ∃ task ∈ due, ∃ agent, dispatchNote task agent command ∈ tables.audit

theorem CommandsNoted.agentTurn {due : List ScheduledTask}
    {before : List ScheduledCommand} {task : ScheduledTask}
    {agent : ManagedAgent} {s s' : PassState × List AgentOutcome}
    (htask : task ∈ due) (h : agentTurn env now task s agent = .ok s')
    (hnoted : CommandsNoted due before s.1.tables) :
    CommandsNoted due before s'.1.tables := by
  have hgrows := (agentTurn_frame h).2
  have hold : ∀ command ∈ s.1.tables.fleet.commands, command ∈ before ∨
      ∃ task ∈ due, ∃ agent,
        dispatchNote task agent command ∈ s'.1.tables.audit := by
    intro command hcommand
    obtain hbefore | ⟨origin, horigin, at_, hnote⟩ := hnoted command hcommand
    · exact .inl hbefore
    · exact .inr ⟨origin, horigin, at_, hgrows hnote⟩
  obtain ⟨policy, -, hs⟩ | ⟨-, -, hs⟩ | ⟨-, -, notes, -, hs⟩ |
    ⟨-, -, notes, payload, queued, -, -, hs⟩ := agentTurn_cases h
  all_goals rw [hs] at hold ⊢
  · exact hold
  · exact hold
  · exact hold
  · intro command hcommand
    obtain hcommand | hcommand := List.mem_append.mp hcommand
    · exact hold command hcommand
    · obtain rfl := List.mem_singleton.mp hcommand
      exact .inr ⟨task, htask, agent,
        List.mem_append_right _ (List.mem_singleton.mpr rfl)⟩

/-- What one task's turn does to the rows: its own is written, with the next
run computed at the time of the pass. -/
theorem taskTurn_rows {task : ScheduledTask} {s s' : PassState}
    (h : taskTurn env now s task = .ok s') :
    ∃ status next updatedAt, nextRunAfter env now task = .ok next ∧
      s'.tables.tasks =
        (s.tables.write (ranRow now task status next updatedAt)).tasks := by
  unfold taskTurn at h
  split at h
  · obtain ⟨next, hnext, h⟩ := bind_eq_ok.mp h
    obtain rfl := Except.ok.inj h
    exact ⟨_, next, _, hnext, rfl⟩
  · split at h
    · obtain ⟨next, hnext, h⟩ := bind_eq_ok.mp h
      obtain rfl := Except.ok.inj h
      exact ⟨_, next, _, hnext, rfl⟩
    · obtain ⟨⟨t, outcomes⟩, hloop, h⟩ := bind_eq_ok.mp h
      obtain ⟨next, hnext, h⟩ := bind_eq_ok.mp h
      obtain rfl := Except.ok.inj h
      have hframe : t.tables.tasks = s.tables.tasks :=
        foldlM_preserves (P := fun x => x.1.tables.tasks = s.tables.tasks)
          (fun _ _ _ _ hturn hsame => (agentTurn_frame hturn).1.trans hsame)
          hloop rfl
      refine ⟨runStatus outcomes, next, now, hnext, ?_⟩
      simp only [SchedulerTables.write, hframe]

theorem CommandsNoted.taskTurn {due : List ScheduledTask}
    {before : List ScheduledCommand} {task : ScheduledTask} {s s' : PassState}
    (htask : task ∈ due) (h : taskTurn env now s task = .ok s')
    (hnoted : CommandsNoted due before s.tables) :
    CommandsNoted due before s'.tables := by
  unfold Scheduler.taskTurn at h
  split at h
  · obtain ⟨next, -, h⟩ := bind_eq_ok.mp h
    obtain rfl := Except.ok.inj h
    exact hnoted
  · split at h
    · obtain ⟨next, -, h⟩ := bind_eq_ok.mp h
      obtain rfl := Except.ok.inj h
      intro command hcommand
      obtain hbefore | ⟨origin, horigin, agent, hnote⟩ := hnoted command hcommand
      · exact .inl hbefore
      · exact .inr ⟨origin, horigin, agent, List.mem_append_left _ hnote⟩
    · obtain ⟨⟨t, outcomes⟩, hloop, h⟩ := bind_eq_ok.mp h
      obtain ⟨next, -, h⟩ := bind_eq_ok.mp h
      obtain rfl := Except.ok.inj h
      exact foldlM_preserves (P := fun x => CommandsNoted due before x.1.tables)
        (fun _ _ _ _ hturn => CommandsNoted.agentTurn htask hturn) hloop hnoted

/-- The row of a task whose turn it was. -/
def Ran (env : SchedulerEnv) (now : Int) (tables : SchedulerTables)
    (task : ScheduledTask) : Prop :=
  ∃ next, nextRunAfter env now task = .ok next ∧
    ∃ row ∈ tables.tasks, row.id = task.id ∧ row.nextRunAt = next ∧
      row.lastRunAt = some now

/-- A task's turn leaves the other rows alone. -/
theorem Ran.later {task other : ScheduledTask} {s s' : PassState}
    (hran : Ran env now s.tables other) (hne : other.id ≠ task.id)
    (htask : task.id ∈ s.tables.tasks.map (·.id))
    (h : taskTurn env now s task = .ok s') : Ran env now s'.tables other := by
  obtain ⟨next, hnext, row, hrow, hid, hat⟩ := hran
  obtain ⟨status, own, updatedAt, -, hrows⟩ := taskTurn_rows h
  refine ⟨next, hnext, row, ?_, hid, hat⟩
  rw [hrows, mem_write (by exact htask)]
  exact .inr ⟨hrow, hid.trans_ne hne⟩

theorem ids_taskTurn {task : ScheduledTask} {s s' : PassState}
    (h : taskTurn env now s task = .ok s') :
    s'.tables.tasks.map (·.id) = s.tables.tasks.map (·.id) := by
  obtain ⟨status, next, updatedAt, -, hrows⟩ := taskTurn_rows h
  rw [hrows, SchedulerTables.write, List.map_map]
  refine List.map_congr_left fun row _ => ?_
  by_cases hid : row.id = task.id <;> simp [ranRow, hid]

theorem ran_taskTurn {task : ScheduledTask} {s s' : PassState}
    (htask : task.id ∈ s.tables.tasks.map (·.id))
    (h : taskTurn env now s task = .ok s') : Ran env now s'.tables task := by
  obtain ⟨status, next, updatedAt, hnext, hrows⟩ := taskTurn_rows h
  refine ⟨next, hnext, ranRow now task status next updatedAt, ?_, rfl, rfl, rfl⟩
  rw [hrows, mem_write (by exact htask)]
  exact .inl rfl

/-- Every task of a loop is written once. -/
theorem ran_loop {l : List ScheduledTask} {s s' : PassState}
    (hids : ∀ task ∈ l, task.id ∈ s.tables.tasks.map (·.id))
    (hnodup : (l.map (·.id)).Nodup)
    (h : l.foldlM (taskTurn env now) s = .ok s') :
    ∀ task ∈ l, Ran env now s'.tables task := by
  induction l generalizing s with
  | nil => exact fun task htask => absurd htask List.not_mem_nil
  | cons task l ih =>
      obtain ⟨mid, hturn, hrest⟩ := foldlM_cons_eq_ok.mp h
      obtain ⟨hfresh, hnodup⟩ := List.nodup_cons.mp hnodup
      have hmid := ids_taskTurn hturn
      have hidsMid : ∀ other ∈ l, other.id ∈ mid.tables.tasks.map (·.id) := by
        rw [hmid]
        exact fun other hother => hids other (List.mem_cons_of_mem _ hother)
      refine List.forall_mem_cons.mpr ⟨?_, ih hidsMid hnodup hrest⟩
      have hran := ran_taskTurn (hids task List.mem_cons_self) hturn
      -- the turns that follow write other rows
      refine (foldlM_preserves
        (P := fun x => x.tables.tasks.map (·.id) = mid.tables.tasks.map (·.id) ∧
          Ran env now x.tables task)
        (fun x other x' hother hnext hx => ⟨(ids_taskTurn hnext).trans hx.1,
          hx.2.later ?_ ?_ hnext⟩) hrest ⟨rfl, hran⟩).2
      · intro hsame
        exact hfresh (List.mem_map.mpr ⟨other, hother, hsame.symm⟩)
      · rw [hx.1]
        exact hidsMid other hother

/-! ## What is counted -/

/-- At this agent the task is refused for want of approval, or a command is
queued. -/
def AgentCounts (env : SchedulerEnv) (now : Int) (fleet : Fleet)
    (task : ScheduledTask) (agent : ManagedAgent) : Prop :=
  (approvalPolicy fleet task agent).isSome = true ∨
    (busy fleet task agent = false ∧
      ∃ notes payload,
        patchGate env now fleet task agent = .ok (notes, some payload))

/-- The task is a power operation, its run is skipped as too late, or it
counts at one of its agents. -/
def TaskCounts (env : SchedulerEnv) (now : Int) (fleet : Fleet)
    (task : ScheduledTask) : Prop :=
  isPowerOperation task.kind = true ∨ skipsMisfire task now = true ∨
    ∃ agent ∈ targetAgents fleet task, AgentCounts env now fleet task agent

def PassState.counted (s : PassState) : Nat := s.dispatched + s.skipped

/-- A turn that counts nothing leaves the tables tasks are judged by. -/
theorem agentTurn_counts {task : ScheduledTask} (s : PassState × List AgentOutcome)
    (agent : ManagedAgent) (s' : PassState × List AgentOutcome)
    (h : agentTurn env now task s agent = .ok s') :
    AgentCounts env now s.1.tables.fleet task agent ∧
        PassState.counted s.1 < PassState.counted s'.1 ∨
      ¬ AgentCounts env now s.1.tables.fleet task agent ∧
        PassState.counted s'.1 = PassState.counted s.1 ∧
        s'.1.tables.fleet = s.1.tables.fleet := by
  obtain ⟨policy, hpolicy, hs⟩ | ⟨hpolicy, hbusy, hs⟩ |
    ⟨hpolicy, hfree, notes, hgate, hs⟩ |
    ⟨hpolicy, hfree, notes, payload, command, hgate, -, hs⟩ := agentTurn_cases h
  · refine .inl ⟨.inl (by rw [hpolicy]; rfl), ?_⟩
    simp only [hs, PassState.counted, PassState.note]
    omega
  · refine .inr ⟨?_, by rw [hs], by rw [hs]⟩
    rintro (hsome | ⟨hfree, -⟩)
    · simp [hpolicy] at hsome
    · simp [hbusy] at hfree
  · refine .inr ⟨?_, by rw [hs]; rfl, by rw [hs]; rfl⟩
    rintro (hsome | ⟨-, notes', payload, hpasses⟩)
    · simp [hpolicy] at hsome
    · simp [hgate] at hpasses
  · refine .inl ⟨.inr ⟨hfree, notes, payload, hgate⟩, ?_⟩
    simp only [hs, PassState.counted, PassState.note, PassState.queue]
    omega

theorem taskTurn_counts (s : PassState) (task : ScheduledTask) (s' : PassState)
    (h : taskTurn env now s task = .ok s') :
    TaskCounts env now s.tables.fleet task ∧
        PassState.counted s < PassState.counted s' ∨
      ¬ TaskCounts env now s.tables.fleet task ∧
        PassState.counted s' = PassState.counted s ∧
        s'.tables.fleet = s.tables.fleet := by
  unfold taskTurn at h
  split at h
  · next hpower =>
    obtain ⟨next, -, h⟩ := bind_eq_ok.mp h
    obtain rfl := Except.ok.inj h
    refine .inl ⟨.inl hpower, ?_⟩
    simp only [PassState.counted]
    omega
  · next hordinary =>
    split at h
    · next hlate =>
      obtain ⟨next, -, h⟩ := bind_eq_ok.mp h
      obtain rfl := Except.ok.inj h
      refine .inl ⟨.inr (.inl hlate), ?_⟩
      simp only [PassState.counted, PassState.note]
      omega
    · next htimely =>
      obtain ⟨⟨t, outcomes⟩, hloop, h⟩ := bind_eq_ok.mp h
      obtain ⟨next, -, h⟩ := bind_eq_ok.mp h
      obtain rfl := Except.ok.inj h
      obtain ⟨hagent, hlt⟩ | ⟨hnone, hcount, hfleet⟩ :=
        foldlM_counts (fun x => x.1.tables.fleet)
          (fun x => PassState.counted x.1)
          (fun fleet agent => AgentCounts env now fleet task agent)
          agentTurn_counts hloop
      · exact .inl ⟨.inr (.inr hagent), hlt⟩
      · refine .inr ⟨?_, hcount, hfleet⟩
        rintro (hpower | hlate | ⟨agent, hagent, hcounts⟩)
        · exact hordinary hpower
        · exact htimely hlate
        · exact hnone agent hagent hcounts

/-- A pass counts something just when some due task counts in the tables the
pass began with. -/
theorem runPass_counted {tables : SchedulerTables} {s : PassState}
    (h : runPass env now tables = .ok s) :
    0 < PassState.counted s ↔
      ∃ task ∈ dueTasks tables now, TaskCounts env now tables.fleet task := by
  obtain ⟨hsome, hlt⟩ | ⟨hnone, hcount, -⟩ :=
    foldlM_counts (fun s : PassState => s.tables.fleet) PassState.counted
      (TaskCounts env now) taskTurn_counts h
  · exact ⟨fun _ => hsome, fun _ => Nat.zero_lt_of_lt hlt⟩
  · constructor
    · intro hpos
      rw [hcount] at hpos
      exact absurd hpos (Nat.lt_irrefl 0)
    · rintro ⟨task, htask, hcounts⟩
      exact absurd hcounts (hnone task htask)

/-! ## The next run -/

/-- The wall-clock minute the search for a task's next run begins at. -/
def startMinute (env : SchedulerEnv) (now : Int) (task : ScheduledTask) : Int :=
  wholeMinute (now + (getTz env.zones task.timezone).offset now
    + microsPerMinute)

/-- The instant of the wall-clock minute `k` minutes after the start. -/
def minuteInstant (env : SchedulerEnv) (now : Int) (task : ScheduledTask)
    (k : Nat) : Int :=
  startMinute env now task + k * microsPerMinute
    - (getTz env.zones task.timezone).wallOffset
        (startMinute env now task + k * microsPerMinute)

/-- The first minute on the wall of the task's zone that its expression takes
in, `k` minutes after the start, and in reach of the search. -/
structure NextMinute (env : SchedulerEnv) (now : Int) (task : ScheduledTask)
    (k : Nat) : Prop where
  reach : k < maxMinutes
  minute : ∃ s, parseCron env.foreignDigit task.cronExpression = .ok s ∧
    FirstMinute s (startMinute env now task) k

theorem FirstMinute.unique {s : CronSchedule} {start : Int} {j k : Nat}
    (hj : FirstMinute s start j) (hk : FirstMinute s start k) : j = k := by
  obtain hlt | heq | hgt := Nat.lt_trichotomy j k
  · exact absurd (hk.first j hlt) (by simp [hj.taken])
  · exact heq
  · exact absurd (hj.first k hgt) (by simp [hk.taken])

theorem NextMinute.unique {task : ScheduledTask} {j k : Nat}
    (hj : NextMinute env now task j) (hk : NextMinute env now task k) :
    j = k := by
  obtain ⟨s, hs, hj⟩ := hj.minute
  obtain ⟨s', hs', hk⟩ := hk.minute
  obtain rfl := Except.ok.inj (hs.symm.trans hs')
  exact FirstMinute.unique hj hk

theorem mapError_eq_ok {ε ε' α : Type} {f : ε → ε'} {x : Except ε α} {a : α} :
    x.mapError f = .ok a ↔ x = .ok a := by
  cases x <;> simp [Except.mapError]

/-- The next run is computed where the calendar holds the times on the way. -/
theorem nextRunAfter_eq_ok {task : ScheduledTask} {next : Int} :
    nextRunAfter env now task = .ok next ↔
      InRange (now + (getTz env.zones task.timezone).offset now) ∧
      InRange (now + (getTz env.zones task.timezone).offset now
        + microsPerMinute) ∧
      ∃ k, NextMinute env now task k ∧ InRange (minuteInstant env now task k) ∧
        next = minuteInstant env now task k := by
  simp only [nextRunAfter, mapError_eq_ok, computeNextRun, bind_eq_ok,
    inCalendar_eq_ok, searchMinutes_eq_ok]
  constructor
  · rintro ⟨s, hs, _, ⟨hwall, rfl⟩, _, ⟨hnext, rfl⟩, _, ⟨k, hk, hfirst, rfl⟩,
      hin, rfl⟩
    exact ⟨hwall, hnext, k, ⟨hk, s, hs, hfirst⟩, hin, rfl⟩
  · rintro ⟨hwall, hnext, k, ⟨hk, s, hs, hfirst⟩, hin, rfl⟩
    exact ⟨s, hs, _, ⟨hwall, rfl⟩, _, ⟨hnext, rfl⟩, _, ⟨k, hk, hfirst, rfl⟩,
      hin, rfl⟩

/-! ## Slots are consumed -/

/-- What a pass owes the slots that were due: every such task is stored with
a later run, none of them is due again at the time of the pass, and a command
is stored only beside the log entry and the advance of its task. -/
structure SlotsConsumed (tables stored : SchedulerTables) (now : Int) :
    Prop where
  advanced : ∀ task ∈ dueTasks tables now,
    ∃ row ∈ stored.tasks, row.id = task.id ∧ now < row.nextRunAt
  notAgain : ∀ task ∈ dueTasks tables now,
    task.id ∉ (dueTasks stored now).map (·.id)
  together : ∀ command ∈ stored.fleet.commands,
    command ∈ tables.fleet.commands ∨
      ∃ task ∈ dueTasks tables now,
        (∃ agent, dispatchNote task agent command ∈ stored.audit) ∧
          ∃ row ∈ stored.tasks, row.id = task.id ∧
            row.lastRunAt = some now ∧ now < row.nextRunAt

/-- The wall clock of the task's zone shows its next minute after the pass:
the clock is not set back over the time of the pass in between. -/
def RunsLater (env : SchedulerEnv) (now : Int) (task : ScheduledTask) : Prop :=
  ∀ k, NextMinute env now task k → now < minuteInstant env now task k

/-- Where the offset never changes, the next minute comes after the pass. -/
theorem runsLater_of_fixed {task : ScheduledTask} {offset : Int}
    (hinstant : ∀ t, (getTz env.zones task.timezone).offset t = offset)
    (hwall : ∀ w, (getTz env.zones task.timezone).wallOffset w = offset) :
    RunsLater env now task := by
  intro k _
  have hbelow := Int.emod_lt_of_pos (now + offset + microsPerMinute)
    (b := microsPerMinute) (by decide)
  have hforward : 0 ≤ (k : Int) * microsPerMinute :=
    Int.mul_nonneg (Int.natCast_nonneg k) (by decide)
  simp only [minuteInstant, startMinute, wholeMinute, hinstant, hwall]
  omega

theorem row_unique {tables : SchedulerTables} {a b : ScheduledTask}
    (ha : a ∈ tables.tasks) (hb : b ∈ tables.tasks) (hid : a.id = b.id) :
    a = b :=
  List.inj_on_of_nodup_map tables.tasks_unique ha hb hid

theorem dueTasks_sublist (tables : SchedulerTables) (now : Int) :
    (dueTasks tables now).Sublist tables.tasks := List.filter_sublist

/-- After a pass every due task has had its turn. -/
theorem runPass_ran {tables : SchedulerTables} {s : PassState}
    (h : runPass env now tables = .ok s) :
    ∀ task ∈ dueTasks tables now, Ran env now s.tables task := by
  have hsub := dueTasks_sublist tables now
  refine ran_loop (fun task htask => ?_) ?_ h
  · exact List.mem_map_of_mem (hsub.subset htask)
  · exact (hsub.map _).nodup tables.tasks_unique

theorem runPass_noted {tables : SchedulerTables} {s : PassState}
    (h : runPass env now tables = .ok s) :
    CommandsNoted (dueTasks tables now) tables.fleet.commands s.tables :=
  foldlM_preserves (P := fun s : PassState =>
      CommandsNoted (dueTasks tables now) tables.fleet.commands s.tables)
    (fun _ _ _ htask hturn => CommandsNoted.taskTurn htask hturn) h
    (fun _ hcommand => .inl hcommand)

theorem dispatch_eq_ok {tables stored : SchedulerTables} {counts : Nat × Nat}
    (h : dispatchScheduledTasksOnce env now tables = .ok (stored, counts)) :
    ∃ s, runPass env now tables = .ok s ∧
      stored = if 0 < PassState.counted s then s.tables else tables := by
  obtain ⟨s, hs, h⟩ := bind_eq_ok.mp h
  refine ⟨s, hs, ?_⟩
  have hstored := (Prod.mk.inj (Except.ok.inj h)).1
  have hcounted : (0 < s.dispatched ∨ 0 < s.skipped) ↔
      0 < PassState.counted s := by
    rw [PassState.counted]
    omega
  rw [← hstored]
  simp only [hcounted]

/-- A task that ran has the run that was computed for it. -/
theorem Ran.runsLater_iff {tables : SchedulerTables} {task : ScheduledTask}
    (hran : Ran env now tables task) :
    RunsLater env now task ↔
      ∃ row ∈ tables.tasks, row.id = task.id ∧ row.lastRunAt = some now ∧
        now < row.nextRunAt := by
  obtain ⟨next, hnext, row, hrow, hid, hat, hlast⟩ := hran
  obtain ⟨-, -, k, hk, -, rfl⟩ := nextRunAfter_eq_ok.mp hnext
  constructor
  · intro hlater
    exact ⟨row, hrow, hid, hlast, hat ▸ hlater k hk⟩
  · rintro ⟨other, hother, hotherID, -, hlt⟩ j hj
    obtain rfl := row_unique hrow hother (hid.trans hotherID.symm)
    rw [hj.unique hk, ← hat]
    exact hlt

/-- A pass that committed, and left every due task a later run. -/
theorem slotsConsumed_of_committed {tables : SchedulerTables} {s : PassState}
    (h : runPass env now tables = .ok s)
    (hlater : ∀ task ∈ dueTasks tables now, RunsLater env now task) :
    SlotsConsumed tables s.tables now := by
  have hrow : ∀ task ∈ dueTasks tables now, ∃ row ∈ s.tables.tasks,
      row.id = task.id ∧ row.lastRunAt = some now ∧ now < row.nextRunAt :=
    fun task htask =>
      (runPass_ran h task htask).runsLater_iff.mp (hlater task htask)
  refine ⟨fun task htask => ?_, fun task htask hagain => ?_, ?_⟩
  · obtain ⟨row, hmem, hid, -, hlt⟩ := hrow task htask
    exact ⟨row, hmem, hid, hlt⟩
  · obtain ⟨row, hmem, hid, -, hlt⟩ := hrow task htask
    obtain ⟨other, hother, hotherID⟩ := List.mem_map.mp hagain
    obtain ⟨hotherMem, hdue⟩ := List.mem_filter.mp hother
    obtain rfl := row_unique hmem hotherMem (hid.trans hotherID.symm)
    simp only [Bool.and_eq_true, decide_eq_true_eq] at hdue
    omega
  · intro command hcommand
    obtain hold | ⟨task, htask, agent, hnote⟩ := runPass_noted h command hcommand
    · exact .inl hold
    · exact .inr ⟨task, htask, ⟨agent, hnote⟩, hrow task htask⟩

/-- A scheduled slot is consumed by a pass just when none was due, or some due
task counts in the tables the pass began with, so that the pass commits, and
every due task's next minute comes after the pass. -/
theorem slotsConsumed_iff {tables stored : SchedulerTables}
    {counts : Nat × Nat}
    (h : dispatchScheduledTasksOnce env now tables = .ok (stored, counts)) :
    SlotsConsumed tables stored now ↔
      dueTasks tables now = [] ∨
        ((∃ task ∈ dueTasks tables now, TaskCounts env now tables.fleet task) ∧
          ∀ task ∈ dueTasks tables now, RunsLater env now task) := by
  obtain ⟨s, hs, hstored⟩ := dispatch_eq_ok h
  have hcounted := runPass_counted hs
  constructor
  · intro hconsumed
    by_cases hdue : dueTasks tables now = []
    · exact .inl hdue
    · have hpos : 0 < PassState.counted s := by
        by_contra hzero
        rw [if_neg hzero] at hstored
        obtain ⟨task, htask⟩ := List.exists_mem_of_ne_nil _ hdue
        refine hconsumed.notAgain task htask ?_
        rw [hstored]
        exact List.mem_map_of_mem htask
      rw [if_pos hpos] at hstored
      refine .inr ⟨hcounted.mp hpos, fun task htask => ?_⟩
      have hran := runPass_ran hs task htask
      obtain ⟨next, -, ran, hranMem, hranID, -, hlast⟩ := id hran
      obtain ⟨row, hrow, hid, hlt⟩ := hconsumed.advanced task htask
      rw [hstored] at hrow
      obtain rfl := row_unique hranMem hrow (hranID.trans hid.symm)
      exact hran.runsLater_iff.mpr ⟨ran, hranMem, hid, hlast, hlt⟩
  · rintro (hnone | ⟨hsome, hlater⟩)
    · have hzero : ¬ 0 < PassState.counted s := by
        rw [hcounted, hnone]
        simp
      rw [if_neg hzero] at hstored
      subst hstored
      refine ⟨?_, ?_, fun command hcommand => .inl hcommand⟩
      · simp [hnone]
      · simp [hnone]
    · rw [if_pos (hcounted.mpr hsome)] at hstored
      subst hstored
      exact slotsConsumed_of_committed hs hlater

/-! ## A slot that stays -/

/-- 2024-02-29, noon. -/
def leapNoon : Int := 1709208000000000

def plainEnv : SchedulerEnv where
  ops := asciiOps
  foreignDigit _ := none
  zones _ := none
  padYear := true
  isoformat _ := "2024-02-29T12:00:00+00:00"
  activeKeyID := py "legacy-v2"
  sign _ := "c2lnbmF0dXJl"
  drawn n := ("command-" ++ toString n, "nonce-0123456789abcdef-" ++ toString n)

def emptyPayload : PyDict := ⟨[], by simp⟩

def onlyAgent : ManagedAgent where
  id := "agent-1"
  siteID := "site-1"
  trustState := .active
  commandEnvelopeVersions := ["command-v2"]
  supportedCapabilities := []

theorem noOperators_id (id : String) (operator : Operator)
    (h : (none : Option Operator) = some operator) : operator.id = id := by
  cases h

/-- One agent, no policy of any kind, and a directory of one site. -/
def plainFleet (commands : List ScheduledCommand) : Fleet where
  agents := [onlyAgent]
  commands := commands
  approvals := {
    operators := fun _ => none
    memberships := fun _ _ => none
    directory := ⟨fun _ => some "site-1", fun _ => some "client-1"⟩
    operators_id := noOperators_id
    policies := [] }
  patch := {
    zones := fun _ => none
    directory := ⟨fun _ => some "site-1", fun _ => some "client-1"⟩
    windows := []
    policies := []
    revisions := []
    missing := fun _ => []
    heartbeats := fun _ => none }

/-- Collects the inventory of the agent every minute, from noon on. -/
def minutely (id : String) (kind : CommandKind) (payload : PyDict) :
    ScheduledTask where
  id := id
  name := id
  description := none
  enabled := true
  targetType := .agent
  targetID := "agent-1"
  cronExpression := "* * * * *"
  timezone := "UTC"
  kind := kind
  scriptVersionID := none
  payload := payload
  concurrencyPolicy := .skip
  misfirePolicy := .runOnce
  nextRunAt := leapNoon
  createdByOperatorID := some "operator-1"
  createdByEmail := some "operator@example.com"
  createdAt := leapNoon - microsPerMinute
  updatedAt := leapNoon - microsPerMinute

/-- The command of an earlier run, which the agent has not picked up. -/
def waitingCommand : ScheduledCommand where
  id := "command-0"
  agentID := "agent-1"
  kind := .collectInventory
  payload := emptyPayload
  envelopeVersion := commandEnvelopeV2
  schemaVersion := commandSchemaVersion
  issuedAt := leapNoon - microsPerMinute
  nonce := "nonce-0123456789abcdef-0"
  signingKeyID := none
  status := .queued
  createdAt := leapNoon - microsPerMinute
  expiresAt := leapNoon - microsPerMinute + dayMicros
  actorEmail := none
  actorOperatorID := none
  scriptVersionID := none
  signature := "c2lnbmF0dXJl"

def inventoryTables (commands : List ScheduledCommand) : SchedulerTables where
  tasks := [minutely "task-1" .collectInventory emptyPayload]
  fleet := plainFleet commands
  audit := []
  tasks_unique := List.nodup_singleton _

theorem inventoryTables_pass :
    ((runPass plainEnv leapNoon (inventoryTables [waitingCommand])).map
      PassState.counted).toOption = some 0 := by decide +kernel

/-- The agent is busy, so nothing is counted: the pass ends without an error,
and the task is due as before. -/
theorem busy_slot_stays :
    ∃ stored counts, dispatchScheduledTasksOnce plainEnv leapNoon
        (inventoryTables [waitingCommand]) = .ok (stored, counts) ∧
      ¬ SlotsConsumed (inventoryTables [waitingCommand]) stored leapNoon := by
  obtain ⟨s, hs, hcounted⟩ : ∃ s, runPass plainEnv leapNoon
      (inventoryTables [waitingCommand]) = .ok s ∧ PassState.counted s = 0 := by
    have hpass := eq_ok_of_toOption inventoryTables_pass
    cases hrun : runPass plainEnv leapNoon (inventoryTables [waitingCommand]) with
    | error e => rw [hrun] at hpass; cases hpass
    | ok s =>
        rw [hrun] at hpass
        exact ⟨s, rfl, Except.ok.inj hpass⟩
  rw [PassState.counted] at hcounted
  have hnone : ¬ (0 < s.dispatched ∨ 0 < s.skipped) := by omega
  refine ⟨inventoryTables [waitingCommand], (s.dispatched, s.skipped), ?_, ?_⟩
  · rw [dispatchScheduledTasksOnce, hs]
    simp only [bind, Except.bind, if_neg hnone]
    rfl
  · intro hconsumed
    have hdue : minutely "task-1" .collectInventory emptyPayload ∈
        dueTasks (inventoryTables [waitingCommand]) leapNoon :=
      List.mem_filter.mpr ⟨List.mem_singleton.mpr rfl, by decide⟩
    exact hconsumed.notAgain _ hdue (List.mem_map_of_mem hdue)

theorem inventoryTables_dispatch :
    (dispatchScheduledTasksOnce plainEnv leapNoon
      (inventoryTables [])).toOption.isSome = true := by decide +kernel

/-- With no command waiting the task is dispatched, and the pass commits. -/
theorem slotsConsumed_iff_inventory :
    ∃ stored counts, dispatchScheduledTasksOnce plainEnv leapNoon
        (inventoryTables []) = .ok (stored, counts) ∧
      (SlotsConsumed (inventoryTables []) stored leapNoon ↔
        dueTasks (inventoryTables []) leapNoon = [] ∨
          ((∃ task ∈ dueTasks (inventoryTables []) leapNoon,
            TaskCounts plainEnv leapNoon (inventoryTables []).fleet task) ∧
            ∀ task ∈ dueTasks (inventoryTables []) leapNoon,
              RunsLater plainEnv leapNoon task)) := by
  have hdispatch := inventoryTables_dispatch
  cases hrun : dispatchScheduledTasksOnce plainEnv leapNoon (inventoryTables [])
    with
  | error e => rw [hrun] at hdispatch; cases hdispatch
  | ok r => exact ⟨r.1, r.2, rfl, slotsConsumed_iff hrun⟩

end NodeLink.Proofs
