import NodeLink.Lib.SlidingWindow
import NodeLink.Proofs.AssistantPrograms

/-!
# How many runs an operator is admitted

A reservation holds the operator's row while it counts, so what it counts is
all there is. Runs are only ever deleted a day after they were created, so the
count of a day misses none of the runs that the trail says were started, and
pruning does not refill a quota.
-/

namespace NodeLink.Server.Assistant

open Lib

/-! ## Counting -/

/-- A run that holds up the next one of its operator. -/
def AssistantRun.live (now : Int) (r : AssistantRun) : Bool :=
  decide (r.status = .running ∧ now < r.deadline)

def AssistantConversation.openFor (operatorID : String) (now : Int)
    (c : AssistantConversation) : Bool :=
  decide (c.operatorID = operatorID ∧ now < c.expiresAt)

/-- An event that says a run was started. -/
def Activity.started (a : Activity) : Bool :=
  decide (a.tool = "run" ∧ a.outcome = "started")

def Activity.startedBy (operatorID : String) (a : Activity) : Bool :=
  a.started && decide (a.actor = operatorID)

/-- When the trail says the operator's runs were started. -/
def startTimes (operatorID : String) (trail : List Activity) : List Int :=
  (trail.filter (Activity.startedBy operatorID)).map (·.createdAt)

def dayBefore (t : Int) : Int := t - day

/-- The quotas, and the rows behind the events of the last day. -/
structure Admitted (w : AssistantWorld) : Prop where
  placed : ∀ r ∈ w.runs, ∃ c ∈ w.conversations, c.id = r.conversationID
  live : ∀ operatorID, w.runs.countP (fun r =>
    owns w operatorID r && r.live w.now) ≤ 1
  bounded : ∀ conversationID, w.runs.countP (fun r =>
    decide (r.conversationID = conversationID)) ≤ maxConversationRuns
  requests : (w.runs.map fun r => (r.conversationID, r.requestID)).Nodup
  opened : ∀ operatorID, w.conversations.countP
    (AssistantConversation.openFor operatorID w.now) ≤ maxConversations
  startsOnce : ((w.trail.filter Activity.started).map (·.runID)).Nodup
  startsDrawn : ∀ a ∈ w.trail, a.started = true →
    ∃ id ∈ w.drawn, a.runID = some id
  recent : ∀ a ∈ w.trail, a.started = true → dayBefore w.now < a.createdAt →
    ∃ r ∈ w.runs, a.runID = some r.id ∧ r.createdAt = a.createdAt ∧
      owns w a.actor r = true
  sparse : ∀ operatorID,
    Sparse dayBefore maxDailyRuns (startTimes operatorID w.trail)

section Keeps

variable {w w' : AssistantWorld}

theorem admitted_fresh (h : w.Fresh) : Admitted w := by
  obtain ⟨hconversations, hruns, htrail, -, -⟩ := h
  constructor <;> simp [hconversations, hruns, htrail, startTimes, sparse_nil]

theorem owns_iff {operatorID : String} {r : AssistantRun} :
    owns w operatorID r = true ↔ ∃ c ∈ w.conversations,
      c.id = r.conversationID ∧ c.operatorID = operatorID := by
  simp [owns]

/-- Fewer conversations, fewer owned. -/
theorem owns_mono (h : ∀ c ∈ w'.conversations, c ∈ w.conversations)
    {operatorID : String} {r : AssistantRun} (hr : owns w' operatorID r = true) :
    owns w operatorID r = true := by
  obtain ⟨c, hc, hown⟩ := owns_iff.mp hr
  exact owns_iff.mpr ⟨c, h c hc, hown⟩

/-- No run is started: rows may end, other events be noted, and time pass. -/
theorem Admitted.quiet (h : Admitted w)
    (hconversations : w'.conversations = w.conversations)
    (hnow : w.now ≤ w'.now) (hdrawn : w'.drawn = w.drawn)
    {g : AssistantRun → AssistantRun} (hruns : w'.runs = w.runs.map g)
    (hg : KeepsRun g)
    (hends : ∀ r ∈ w.runs, (g r).status = .running → r.status = .running)
    {entries : List Activity} (htrail : w'.trail = w.trail ++ entries)
    (hentries : ∀ a ∈ entries, a.started = false) : Admitted w' := by
  have howns : ∀ operatorID r, owns w' operatorID (g r) = owns w operatorID r := by
    intro operatorID r
    simp only [owns, hconversations, (hg r).2.1]
  have hold : ∀ a ∈ w'.trail, a.started = true → a ∈ w.trail := by
    intro a ha hstarted
    rcases List.mem_append.mp (htrail ▸ ha) with ha | ha
    · exact ha
    · simp [hentries a ha] at hstarted
  have hsame : ∀ p : Activity → Bool, (∀ a, p a = true → a.started = true) →
      w'.trail.filter p = w.trail.filter p := by
    intro p hp
    rw [htrail, List.filter_append]
    refine List.append_right_eq_self.mpr (List.filter_eq_nil_iff.mpr ?_)
    intro a ha hpa
    exact Bool.noConfusion ((hentries a ha).symm.trans (hp a hpa))
  constructor
  case placed =>
    intro r' hr'
    obtain ⟨r, hr, rfl⟩ := List.mem_map.mp (hruns ▸ hr')
    rw [hconversations, (hg r).2.1]
    exact h.placed r hr
  case live =>
    intro operatorID
    refine le_trans ?_ (h.live operatorID)
    rw [hruns, List.countP_map]
    refine List.countP_mono_left fun r hr hp => ?_
    simp only [Function.comp_apply, howns, Bool.and_eq_true,
      AssistantRun.live, decide_eq_true_eq, (hg r).2.2.2.2] at hp ⊢
    exact ⟨hp.1, hends r hr hp.2.1, lt_of_le_of_lt hnow hp.2.2⟩
  case bounded =>
    intro conversationID
    rw [hruns, List.countP_map]
    refine le_trans (List.countP_mono_left fun r _ hp => ?_)
      (h.bounded conversationID)
    simpa only [Function.comp_apply, (hg r).2.1] using hp
  case requests =>
    rw [hruns, List.map_map]
    refine (List.map_congr_left fun r _ => ?_) ▸ h.requests
    simp only [Function.comp_apply, (hg r).2.1, (hg r).2.2.1]
  case opened =>
    intro operatorID
    rw [hconversations]
    refine le_trans (List.countP_mono_left fun c _ hp => ?_)
      (h.opened operatorID)
    simp only [AssistantConversation.openFor, decide_eq_true_eq] at hp ⊢
    exact ⟨hp.1, lt_of_le_of_lt hnow hp.2⟩
  case startsOnce =>
    rw [hsame Activity.started fun _ ha => ha]
    exact h.startsOnce
  case startsDrawn =>
    intro a ha hs
    rw [hdrawn]
    exact h.startsDrawn a (hold a ha hs) hs
  case recent =>
    intro a ha hs hday
    have hbefore : dayBefore w.now ≤ dayBefore w'.now := by
      unfold dayBefore
      omega
    obtain ⟨r, hr, hrun, hcreated, hown⟩ :=
      h.recent a (hold a ha hs) hs (lt_of_le_of_lt hbefore hday)
    refine ⟨g r, hruns ▸ List.mem_map_of_mem hr, ?_, ?_, ?_⟩
    · rw [(hg r).1, hrun]
    · rw [(hg r).2.2.2.1, hcreated]
    · rw [howns, hown]
  case sparse =>
    intro operatorID
    rw [startTimes, hsame (Activity.startedBy operatorID)
      fun a ha => (Bool.and_eq_true_iff.mp ha).1]
    exact h.sparse operatorID

theorem prune_countP_le {p : AssistantRun → Bool} {time : Int}
    (hp : ∀ r : AssistantRun, p { r with body := none } = p r) :
    (prune w time).runs.countP p ≤ w.runs.countP p := by
  refine (List.filter_sublist.countP_le).trans ?_
  rw [List.countP_map]
  refine List.countP_mono_left fun r _ hr => ?_
  simp only [Function.comp_apply] at hr
  split at hr
  · exact hp r ▸ hr
  · exact hr

/-- A row that is kept keeps its conversation. -/
theorem prune_placed {time : Int} {r : AssistantRun} {c : AssistantConversation}
    (hr : r ∈ (prune w time).runs) (hc : c ∈ w.conversations)
    (hid : c.id = r.conversationID) : c ∈ (prune w time).conversations := by
  refine List.mem_filter.mpr ⟨hc, ?_⟩
  have hkept : (prune w time).runs.any
      (fun r => decide (r.conversationID = c.id)) = true :=
    List.any_eq_true.mpr ⟨r, hr, decide_eq_true hid.symm⟩
  change (!(_ && !(prune w time).runs.any _)) = true
  rw [hkept]
  simp

theorem Admitted.prune (h : Admitted w) {time : Int} (htime : time ≤ w.now) :
    Admitted (prune w time) where
  placed r' hr' := by
    obtain ⟨r, hr, hcleared⟩ := cleared_of_mem_prune hr'
    obtain ⟨c, hc, hid⟩ := h.placed r hr
    have hsame : r'.conversationID = r.conversationID := by
      rcases hcleared with rfl | rfl <;> rfl
    exact ⟨c, prune_placed hr' hc (hid.trans hsame.symm), hid.trans hsame.symm⟩
  live operatorID := by
    refine le_trans ?_ (h.live operatorID)
    refine (List.countP_mono_left fun r _ hr => ?_).trans
      (prune_countP_le fun _ => rfl)
    obtain ⟨hown, hlive⟩ := Bool.and_eq_true_iff.mp hr
    exact Bool.and_eq_true_iff.mpr
      ⟨owns_mono (fun c hc => (List.mem_filter.mp hc).1) hown, hlive⟩
  bounded conversationID :=
    (prune_countP_le fun _ => rfl).trans (h.bounded conversationID)
  requests := (prune_runs_sublist _ (fun _ => rfl) time).nodup h.requests
  opened operatorID := (List.filter_sublist.countP_le).trans (h.opened operatorID)
  startsOnce := h.startsOnce
  startsDrawn := h.startsDrawn
  recent a ha hstarted hrecent := by
    have hday : w.now - day < a.createdAt := hrecent
    obtain ⟨r, hr, hrun, hcreated, hown⟩ := h.recent a ha hstarted hrecent
    have hkept : ¬ (expiredBy w time r = true ∧ r.createdAt ≤ time - day) := by
      rintro ⟨-, hold⟩
      omega
    have hin := mem_prune_runs.mpr ⟨r, hr, rfl, hkept⟩
    obtain ⟨c, hc, hid, hoperator⟩ := owns_iff.mp hown
    refine ⟨_, hin, ?_, ?_, owns_iff.mpr ⟨c, ?_, ?_, hoperator⟩⟩
    · split <;> exact hrun
    · split <;> exact hcreated
    · refine prune_placed hin hc ?_
      split <;> exact hid
    · split <;> exact hid
  sparse := h.sparse

/-- A conversation no run is in. -/
theorem Admitted.addConversation (h : Admitted w) {row : AssistantConversation}
    {drawn : List String} (hdrawn : ∀ id ∈ w.drawn, id ∈ drawn)
    (hfree : ∀ r ∈ w.runs, r.conversationID ≠ row.id)
    (hcount : w.conversations.countP
      (AssistantConversation.openFor row.operatorID w.now) < maxConversations) :
    Admitted { w with conversations := w.conversations ++ [row], drawn } := by
  have howns : ∀ operatorID, ∀ r ∈ w.runs,
      owns { w with conversations := w.conversations ++ [row], drawn } operatorID r =
        owns w operatorID r := by
    intro operatorID r hr
    have hnot : (decide (row.id = r.conversationID ∧
        row.operatorID = operatorID)) = false :=
      decide_eq_false fun hboth => hfree r hr hboth.1.symm
    simp only [owns, List.any_append, List.any_cons, List.any_nil, hnot,
      Bool.or_false]
  refine { h with
    placed := fun r hr => ?_
    live := fun operatorID => ?_
    opened := fun operatorID => ?_
    startsDrawn := fun a ha hs => ?_
    recent := fun a ha hs hday => ?_ }
  · obtain ⟨c, hc, hid⟩ := h.placed r hr
    exact ⟨c, List.mem_append_left _ hc, hid⟩
  · refine (List.countP_mono_left fun r hr hp => ?_).trans (h.live operatorID)
    rwa [howns operatorID r hr] at hp
  · have hold := h.opened operatorID
    show (w.conversations ++ [row]).countP
      (AssistantConversation.openFor operatorID w.now) ≤ maxConversations
    rw [List.countP_append, List.countP_singleton]
    split
    · next hopen =>
        obtain rfl := (of_decide_eq_true hopen).1
        omega
    · exact hold
  · obtain ⟨id, hid, hrun⟩ := h.startsDrawn a ha hs
    exact ⟨id, hdrawn id hid, hrun⟩
  · obtain ⟨r, hr, hrun, hcreated, hown⟩ := h.recent a ha hs hday
    exact ⟨r, hr, hrun, hcreated, (howns a.actor r hr).trans hown⟩

/-- Behind each start of the last day there is a row of its own. -/
theorem Admitted.starts_le (h : Admitted w) (operatorID : String) :
    (after (dayBefore w.now) (startTimes operatorID w.trail)).length ≤
      w.runs.countP fun r => owns w operatorID r &&
        decide (w.now - day < r.createdAt) := by
  have hlength : (after (dayBefore w.now) (startTimes operatorID w.trail)).length =
      (((w.trail.filter Activity.started).filter fun a =>
        decide (a.actor = operatorID) && decide (dayBefore w.now < a.createdAt)).map
          (·.runID)).length := by
    rw [startTimes, after, List.filter_map, List.length_map, List.length_map,
      List.filter_filter, List.filter_filter]
    congr 1
    refine List.filter_congr fun a _ => ?_
    simp only [Activity.startedBy, Function.comp_apply]
    cases a.started <;> simp [Bool.and_comm]
  rw [hlength, List.countP_eq_length_filter,
    ← List.length_map fun r : AssistantRun => some r.id]
  refine (List.subperm_of_subset ?_ fun id hid => ?_).length_le
  · exact (List.Sublist.map _ List.filter_sublist).nodup h.startsOnce
  · obtain ⟨a, ha, rfl⟩ := List.mem_map.mp hid
    obtain ⟨hstart, hp⟩ := List.mem_filter.mp ha
    obtain ⟨hmem, hstarted⟩ := List.mem_filter.mp hstart
    simp only [Bool.and_eq_true, decide_eq_true_eq] at hp
    obtain ⟨rfl, hday⟩ := hp
    obtain ⟨r, hr, hrun, hcreated, hown⟩ := h.recent a hmem hstarted hday
    refine List.mem_map.mpr ⟨r, List.mem_filter.mpr ⟨hr, ?_⟩, hrun.symm⟩
    rw [hown, hcreated, Bool.true_and]
    exact decide_eq_true hday

/-- The event of a run that starts. -/
def startOf (w : AssistantWorld) (operatorID : String)
    (conversation : AssistantConversation) (row : AssistantRun) : Activity where
  createdAt := w.now
  actor := operatorID
  organizationID := conversation.clientID
  conversationID := conversation.id
  runID := some row.id
  tool := "run"
  outcome := "started"

/-- A run that found the quotas free. -/
theorem Admitted.addRun (h : Admitted w) (hw : Sound w) {row : AssistantRun}
    {conversation : AssistantConversation} (hid : row.id ∉ w.drawn)
    (hin : conversation ∈ w.conversations)
    (hconversation : row.conversationID = conversation.id)
    (hcreated : row.createdAt = w.now)
    (hnew : ∀ r ∈ w.runs, ¬ (r.conversationID = conversation.id ∧
      r.requestID = row.requestID))
    (hfree : ∀ r ∈ w.runs, owns w conversation.operatorID r = true →
      ¬ (r.status = .running ∧ w.now < r.deadline))
    (hdaily : w.runs.countP (fun r => owns w conversation.operatorID r &&
      decide (w.now - day < r.createdAt)) < maxDailyRuns)
    (hcount : w.runs.countP (fun r =>
      decide (r.conversationID = conversation.id)) < maxConversationRuns) :
    Admitted { w with
      runs := w.runs ++ [row]
      drawn := w.drawn ++ [row.id]
      trail := w.trail ++
        [startOf w conversation.operatorID conversation row] } := by
  have howner : ∀ operatorID, owns w operatorID row = true ↔
      operatorID = conversation.operatorID := by
    intro operatorID
    rw [owns_iff]
    constructor
    · intro hown
      obtain ⟨c, hc, hcid, rfl⟩ := hown
      rw [(hw.known hin).2 c hc (hcid.trans hconversation)]
    · exact fun heq => ⟨conversation, hin, hconversation.symm, heq.symm⟩
  have hstarted : (startOf w conversation.operatorID conversation row).started =
    true := rfl
  constructor
  case placed =>
    intro r hr
    rcases List.mem_append.mp hr with hr | hr
    · exact h.placed r hr
    · obtain rfl := List.mem_singleton.mp hr
      exact ⟨conversation, hin, hconversation.symm⟩
  case live =>
    intro operatorID
    have hold := h.live operatorID
    show (w.runs ++ [row]).countP
      (fun r => owns w operatorID r && r.live w.now) ≤ 1
    rw [List.countP_append, List.countP_singleton]
    split
    · next hown =>
        obtain rfl := (howner operatorID).mp (Bool.and_eq_true_iff.mp hown).1
        have hnone : w.runs.countP (fun r =>
            owns w conversation.operatorID r && r.live w.now) = 0 := by
          refine List.countP_eq_zero.mpr fun r hr hlive => ?_
          obtain ⟨hown, hlive⟩ := Bool.and_eq_true_iff.mp hlive
          exact hfree r hr hown (of_decide_eq_true hlive)
        omega
    · exact hold
  case bounded =>
    intro conversationID
    have hold := h.bounded conversationID
    show (w.runs ++ [row]).countP _ ≤ _
    rw [List.countP_append, List.countP_singleton]
    split
    · next hsame =>
        obtain rfl := hconversation.symm.trans (of_decide_eq_true hsame)
        omega
    · exact hold
  case requests =>
    rw [List.map_append, List.nodup_append]
    refine ⟨h.requests, List.nodup_singleton _, fun p hp q hq heq => ?_⟩
    obtain ⟨r, hr, rfl⟩ := List.mem_map.mp hp
    obtain rfl := List.mem_singleton.mp hq
    obtain ⟨hsame, hrequest⟩ := Prod.mk.inj heq
    exact hnew r hr ⟨hsame.trans hconversation, hrequest⟩
  case opened => exact h.opened
  case startsOnce =>
    rw [List.filter_append, List.filter_cons_of_pos hstarted, List.filter_nil,
      List.map_append, List.nodup_append]
    refine ⟨h.startsOnce, List.nodup_singleton _, fun p hp q hq heq => ?_⟩
    obtain ⟨a, ha, rfl⟩ := List.mem_map.mp hp
    obtain rfl := List.mem_singleton.mp hq
    obtain ⟨hmem, hs⟩ := List.mem_filter.mp ha
    obtain ⟨id, hdrawn, hrun⟩ := h.startsDrawn a hmem hs
    obtain rfl := Option.some.inj (hrun.symm.trans heq)
    exact hid hdrawn
  case startsDrawn =>
    intro a ha hs
    rcases List.mem_append.mp ha with ha | ha
    · obtain ⟨id, hdrawn, hrun⟩ := h.startsDrawn a ha hs
      exact ⟨id, List.mem_append_left _ hdrawn, hrun⟩
    · obtain rfl := List.mem_singleton.mp ha
      exact ⟨row.id, List.mem_append_right _ List.mem_cons_self, rfl⟩
  case recent =>
    intro a ha hs hday
    rcases List.mem_append.mp ha with ha | ha
    · obtain ⟨r, hr, hrun⟩ := h.recent a ha hs hday
      exact ⟨r, List.mem_append_left _ hr, hrun⟩
    · obtain rfl := List.mem_singleton.mp ha
      exact ⟨row, List.mem_append_right _ List.mem_cons_self, rfl, hcreated,
        (howner _).mpr rfl⟩
  case sparse =>
    intro operatorID
    rw [startTimes, List.filter_append, List.map_append]
    by_cases heq : operatorID = conversation.operatorID
    · subst heq
      have hby : (startOf w conversation.operatorID conversation row).startedBy
          conversation.operatorID = true := by
        rw [Activity.startedBy, hstarted, Bool.true_and]
        exact decide_eq_true rfl
      rw [List.filter_cons_of_pos hby]
      refine sparse_concat.mpr ⟨h.sparse _, ?_⟩
      have hle := h.starts_le conversation.operatorID
      exact Int.ofNat_lt.mpr (lt_of_le_of_lt hle hdaily)
    · have hby : ¬ (startOf w conversation.operatorID conversation row).startedBy
          operatorID = true := by
        rw [Activity.startedBy, hstarted, Bool.true_and]
        exact fun hsame => heq (of_decide_eq_true hsame).symm
      rw [List.filter_cons_of_neg hby, List.filter_nil, List.map_nil,
        List.append_nil]
      exact h.sparse operatorID

theorem Admitted.record (h : Admitted w) {operatorID tool outcome : String}
    {conversation : AssistantConversation} {runID target : Option String}
    (hno : ¬ (tool = "run" ∧ outcome = "started")) :
    Admitted (record w operatorID conversation runID tool outcome target) := by
  refine h.quiet (g := id) rfl le_rfl rfl (List.map_id _).symm
    (fun _ => ⟨rfl, rfl, rfl, rfl, rfl⟩) (fun _ _ hr => hr) rfl fun a ha => ?_
  obtain rfl := List.mem_singleton.mp ha
  exact decide_eq_false hno

theorem Admitted.settles (h : Admitted w) {r r' : AssistantRun}
    {prompt : List InputItem} (hset : Settles w w' r r' prompt)
    (hkeeps : r'.id = r.id ∧ r'.conversationID = r.conversationID ∧
      r'.requestID = r.requestID ∧ r'.createdAt = r.createdAt ∧
      r'.deadline = r.deadline) (hover : r'.status ≠ .running) :
    Admitted w' := by
  obtain ⟨entry, -, -, houtcome, htrail⟩ := hset.trail
  refine h.quiet hset.conversations hset.now.ge hset.drawn hset.runs
    (fun x => ?_) (fun x _ hx => ?_) htrail fun a ha => ?_
  · split
    · next heq => exact heq ▸ hkeeps
    · exact ⟨rfl, rfl, rfl, rfl, rfl⟩
  · split at hx
    · exact absurd hx hover
    · exact hx
  · obtain rfl := List.mem_singleton.mp ha
    exact decide_eq_false fun hstart =>
      RunStatus.value_ne_started r'.status (houtcome.symm.trans hstart.2)

theorem Admitted.drift (h : Admitted w) (hd : drift w w') : Admitted w' := by
  obtain ⟨hnow, hconversations, hruns, htrail, -, hdrawn⟩ := hd
  exact h.quiet (g := id) hconversations hnow hdrawn
    (hruns.trans (List.map_id _).symm) (fun _ => ⟨rfl, rfl, rfl, rfl, rfl⟩)
    (fun _ _ hr => hr) (htrail.trans (List.append_nil _).symm) nofun

theorem Admitted.change (h : Admitted w) (hw : Sound w) (hc : Change w w') :
    Admitted w' := by
  cases hc with
  | same => exact h
  | noted htool => exact h.record fun hboth => htool hboth.1
  | pruned htime => exact h.prune htime
  | created hid hcreated =>
      obtain ⟨hcount, rfl, hoperator, rfl⟩ := created_spec hcreated
      refine ((h.prune le_rfl).addConversation
        (fun _ hd => List.mem_append_left _ hd) (fun r hr heq => ?_) ?_).record
        (by decide)
      · obtain ⟨c, hc, hcid⟩ := (h.prune le_rfl).placed r hr
        have hdrawn := (hw.prune w.now).conversationsDrawn c hc
        exact hid ((hcid.trans heq) ▸ hdrawn)
      · exact hoperator ▸ hcount
  | reserved hid hknown hown hreserved =>
      rcases reserved_spec hreserved with rfl | hrow
      · exact h
      · obtain ⟨row, rfl, -, -, hconversation, hrequest, hcreated, -, hnew, hfree,
          hdaily, hcount, ⟨c, hc, hcid⟩, rfl⟩ := hrow
        obtain rfl := hknown.2 c hc hcid
        rw [← hown] at hfree hdaily ⊢
        exact h.addRun hw hid hc hconversation hcreated (hrequest ▸ hnew) hfree
          hdaily hcount
  | settled hkeeps hstatus hends hsettle =>
      obtain ⟨r, -, hset⟩ := settles_of_settle hw.runIDs hstatus hsettle
      exact h.settles hset (hkeeps r)
        (hends r (hw.waiting r hset.mem hset.running)).finished

end Keeps

end NodeLink.Server.Assistant
