import NodeLink.Proofs.AssistantAdmission

/-!
# The assistant over whole runs

From a server the assistant has not been used on, through any requests, any
interleaving of their steps, any interruption and any change of authority: how
many runs an operator is admitted, that a run ends once and as the trail says,
what an answer was made from, and who may be shown it.
-/

namespace NodeLink.Server.Assistant

open Lib

section Runs

variable {lib : AssistantLib} {c c' : AssistantCrew}

/-! ## Reached states -/

abbrev AssistantGood (lib : AssistantLib) : AssistantCrew → Prop :=
  Crew.Good (rules lib) Sound (fun _ => Rely) Guard

theorem good_fresh {w : AssistantWorld} (h : w.Fresh) :
    AssistantGood lib { world := w } :=
  ⟨sound_fresh h, nofun⟩

theorem Reached.good (h : Reached lib c) : AssistantGood lib c := by
  obtain ⟨w, hfresh, hrun⟩ := h
  exact good_steps (good_fresh hfresh) hrun

theorem Reached.sound (h : Reached lib c) : Sound c.world := h.good.world

theorem Reached.steps (h : Reached lib c) (hrun : AssistantSteps lib c c') :
    Reached lib c' := by
  obtain ⟨w, hfresh, hstart⟩ := h
  exact ⟨w, hfresh, hstart.trans hrun⟩

/-- What every change to the tables respects, and the drift, a run does. -/
theorem related_steps {S : AssistantWorld → AssistantWorld → Prop}
    (hrefl : ∀ w, S w w) (htrans : ∀ u v w, S u v → S v w → S u w)
    (hchange : ∀ w w', Sound w → Change w w' → S w w')
    (hdrift : ∀ w w', drift w w' → S w w') (h : AssistantGood lib c)
    (hrun : AssistantSteps lib c c') : S c.world c'.world := by
  induction hrun with
  | refl => exact hrefl _
  | @tail d _ hrun hstep ih =>
      have hd : AssistantGood lib d := good_steps h hrun
      refine htrans _ _ _ ih ?_
      cases hstep with
      | start _ _ => exact hrefl _
      | act hs _ hdoes =>
          have hguard := hd.guard (fun _ => .refl) hs
          exact hchange _ _ hd.world (change_of_does hguard hdoes)
      | leave => exact hrefl _
      | drift hmove => exact hdrift _ _ hmove

theorem Reached.admitted (h : Reached lib c) : Admitted c.world := by
  obtain ⟨w, hfresh, hrun⟩ := h
  have hstays : Admitted w → Admitted c.world :=
    related_steps (S := fun w w' => Admitted w → Admitted w') (fun _ hw => hw)
      (fun _ _ _ huv hvw hu => hvw (huv hu))
      (fun _ _ hsound hc hw => hw.change hsound hc)
      (fun _ _ hd hw => hw.drift hd) (good_fresh hfresh) hrun
  exact hstays (admitted_fresh hfresh)

/-! ## A sample

An operator opens a conversation and asks twice; each question is answered after
one tool call, the second one with the first answer in its prompt. -/

section Sample

def sampleOperator : Operator where
  id := "op-1"
  email := "op@example.com"
  role := .admin
  disabled := false
  isPlatformAdmin := true
  scriptExecutionScope := none
  scriptExecutionScopeID := none

def sampleWorld : AssistantWorld where
  now := 0
  callers _ := some sampleOperator
  authority := {
    operators := fun _ => none
    memberships := fun _ _ => none
    directory := {
      agentSite := fun _ => none
      siteClient := fun _ => some "client-1" }
    operators_id := nofun }
  clients _ := true
  endpoints _ := some ⟨"site-1", .active⟩
  settings := ⟨true, [], true⟩

def sampleLib : AssistantLib where
  cleanText text _ := text
  inputBytes _ := 0
  responseBytes _ := 0
  validate _ _ := some ⟨some "agent-1", "\x7b\x7d"⟩

def InputItem.isToolOutput : InputItem → Bool
  | .toolOutput .. => true
  | _ => false

/-- The provider calls a tool, and answers once it has its output. -/
def sampleResponse (inputs : List InputItem) : List (String × PyValue) :=
  let item : PyValue :=
    if inputs.any InputItem.isToolOutput then
      .obj [("type", .str "message"), ("content", .arr [
        .obj [("type", .str "output_text"), ("text", .str "All is well.")]])]
    else
      .obj [("type", .str "function_call"), ("name", .str "active_alerts"),
        ("arguments", .str "\x7b\x7d"), ("call_id", .str "call-1")]
  [("usage", .obj [("total_tokens", .num (.int 700))]), ("output", .arr [item])]

/-- A transaction with an identifier that may have been drawn before. -/
def sampleDraw {α : Type} (w : AssistantWorld) (l : AssistantSession)
    (outcome : String → Except AssistantFault (α × AssistantWorld)) :
    Except AssistantFault α × AssistantWorld × AssistantSession :=
  let id := String.ofList (List.replicate (w.drawn.length + 1) 'x')
  if id ∈ w.drawn then (.error .other, w, l)
  else match outcome id with
    | .ok (x, v) => (.ok x, v, l)
    | .error e => (.error e, w, l)

theorem sampleDraw_commits {α : Type} (w : AssistantWorld)
    (l : AssistantSession)
    (outcome : String → Except AssistantFault (α × AssistantWorld)) :
    ((∃ id, id ∉ w.drawn ∧ Commits w (outcome id) (sampleDraw w l outcome).1
        (sampleDraw w l outcome).2.1) ∧ (sampleDraw w l outcome).2.2 = l) ∨
      sampleDraw w l outcome = (.error .other, w, l) := by
  unfold sampleDraw
  dsimp only
  split
  · exact .inr rfl
  · next hfresh =>
      refine .inl ⟨⟨_, hfresh, ?_⟩, ?_⟩
      all_goals
        cases outcome (String.ofList
          (List.replicate (w.drawn.length + 1) 'x')) with
        | ok x => first | exact ⟨rfl, rfl⟩ | rfl
        | error e => first | exact ⟨rfl, rfl⟩ | rfl

/-- Nothing is interrupted. -/
def sampleAnswer (w : AssistantWorld) (l : AssistantSession) :
    (o : AssistantOp) → AssistantAns o × AssistantWorld × AssistantSession
  | .authorizeClient authorization clientID =>
    (do
      let operator ← authorizeOperator w authorization
      authorizeClient w operator clientID
      return operator, w, l)
  | .createConversation operator clientID =>
    sampleDraw w l (createConversation w operator clientID)
  | .authorize authorization conversationID =>
    (authorize w authorization conversationID, w, l)
  | .reserve operator conversation requestID question =>
    sampleDraw w l (reserve w operator conversation requestID question)
  | .checked authorization conversationID runID targets =>
    let a := checked w authorization conversationID runID targets
    (a, w, if a.isOk then ⟨targets⟩ else l)
  | .history authorization conversationID =>
    (history w authorization conversationID, w, l)
  | .respond inputs => (.ok (sampleResponse inputs), w, l)
  | .execute name _ operator conversation =>
    (.ok {
      tool := name
      outcome := "observed"
      sources := ["agent-1"].filter
        (visible w operator conversation.clientID)
      data := .arr [] }, w, l)
  | .record operator conversation runID tool outcome target =>
    (.ok (), record w operator.id conversation (some runID) tool outcome target,
      l)
  | .findRequest conversationID requestID =>
    (.ok (w.runs.find? fun r => decide (r.conversationID = conversationID ∧
      r.requestID = requestID)), w, l)
  | .cancel operator conversation runID =>
    let after := settle w operator.id conversation runID "cancelled" []
      fun r => { r with status := .cancelled }
    (.ok after.isSome, after.getD w, l)
  | .findRun conversationID runID =>
    (.ok (do
      let row ← w.run runID
      let conversation ← w.conversations.find? fun c =>
        decide (c.id = conversationID)
      return (row, conversation)), w, l)
  | .finish conversation runID e =>
    (.ok (), (settle w conversation.operatorID conversation runID
      e.status.value e.prompt e.edit).getD w, l)
  | .prune time =>
    if time ≤ w.now then (.ok (), Assistant.prune w time, l)
    else (.error .other, w, l)

theorem sampleAnswer_lawful (w : AssistantWorld) (l : AssistantSession)
    (o : AssistantOp) :
    does w l o (sampleAnswer w l o).1 (sampleAnswer w l o).2.1
      (sampleAnswer w l o).2.2 := by
  cases o with
  | authorizeClient | authorize | checked | history | findRequest | findRun
  | cancel | record | finish => exact .inl ⟨rfl, rfl, rfl⟩
  | respond inputs => exact .inl ⟨rfl, rfl⟩
  | createConversation operator clientID =>
      rcases sampleDraw_commits w l (createConversation w operator clientID)
        with h | h
      · exact .inl h
      · rw [sampleAnswer, h]
        exact .inr ⟨.other, rfl, rfl, rfl, .inl rfl⟩
  | reserve operator conversation requestID question =>
      rcases sampleDraw_commits w l
        (reserve w operator conversation requestID question) with h | h
      · exact .inl h
      · rw [sampleAnswer, h]
        exact .inr ⟨.other, rfl, rfl, rfl, .inl rfl⟩
  | execute name args operator conversation =>
      refine .inl ⟨fun result hresult => ?_, rfl, rfl⟩
      obtain rfl := Except.ok.inj hresult
      exact ⟨rfl, fun source hsource => (List.mem_filter.mp hsource).2⟩
  | prune time =>
      by_cases htime : time ≤ w.now
      · rw [sampleAnswer, if_pos htime]
        exact .inl ⟨htime, rfl, rfl, rfl⟩
      · rw [sampleAnswer, if_neg htime]
        exact .inr ⟨.other, rfl, rfl, rfl, .inl rfl⟩

def sampleReplies : Crew.Replies (rules sampleLib) where
  answer := sampleAnswer
  lawful := sampleAnswer_lawful

/-- A request that has begun in seat `t`. -/
def AssistantRequest.begin (request : AssistantRequest) (t : Nat)
    (c : AssistantCrew) : AssistantCrew :=
  c.seat t (some ({}, request.program sampleLib))

/-- The conversation is there. -/
def opened : AssistantCrew :=
  [0, 0].foldl sampleReplies.turn
    ((AssistantRequest.create "token" "client-1").begin 0
      { world := sampleWorld })

/-- The provider is about to be sent what the tool has found. -/
def asking : AssistantCrew :=
  (List.replicate 11 1).foldl sampleReplies.turn
    ((AssistantRequest.run "token" "x" "request-1" "Any alerts?").begin 1
      opened)

def answered : AssistantCrew :=
  (List.replicate 6 1).foldl sampleReplies.turn asking

/-- The provider is about to be sent a second question behind the first answer,
before any tool is called. -/
def reasking : AssistantCrew :=
  (List.replicate 5 3).foldl sampleReplies.turn
    ((AssistantRequest.run "token" "x" "request-2" "And now?").begin 3
      answered)

def reanswered : AssistantCrew :=
  (List.replicate 12 3).foldl sampleReplies.turn reasking

/-- A cancellation that comes too late. -/
def cancelledLate : AssistantCrew :=
  (List.replicate 3 2).foldl sampleReplies.turn
    ((AssistantRequest.cancel "token" "x" "request-1").begin 2 answered)

theorem steps_begin {c d : AssistantCrew} {request : AssistantRequest} {t : Nat}
    (h : AssistantSteps sampleLib c d) (hfree : (d.sessions t).isNone = true)
    (ts : List Nat) :
    AssistantSteps sampleLib c
      (ts.foldl sampleReplies.turn (request.begin t d)) :=
  (h.tail (.start (Option.isNone_iff_eq_none.mp hfree)
    ⟨rfl, request, rfl⟩)).trans
      (sampleReplies.run_turns (fun _ _ _ => trivial) _ ts)

def sampleEvidence : Evidence where
  tool := "active_alerts"
  outcome := "observed"
  sources := ["agent-1"]
  data := .arr []

def sampleBody : RunBody where
  question := "Any alerts?"
  answer := "All is well."
  evidence := [sampleEvidence]
  accessEndpointIDs := ["agent-1"]

def sampleRun : AssistantRun where
  id := "xx"
  conversationID := "x"
  requestID := "request-1"
  status := .completed
  createdAt := 0
  deadline := 45000000
  body := some sampleBody
  toolCount := 1
  usageTokens := 1400

/-- What the history shows of it. -/
def sampleView : RunView where
  id := "xx"
  requestID := "request-1"
  status := .completed
  createdAt := 0
  toolCount := 1
  usageTokens := 1400
  body := sampleBody

def secondBody : RunBody := { sampleBody with question := "And now?" }

def secondView : RunView :=
  { sampleView with
    id := "xxx"
    requestID := "request-2"
    body := secondBody }

def sampleHistory : HistoryOut :=
  ⟨"x", "client-1", 2592000000000, [sampleView, secondView]⟩

/-- What a session is about to send the provider. -/
def prompted (c : AssistantCrew) (t : Nat) : Option (List InputItem) :=
  match c.sessions t with
  | some (_, .act (.respond inputs) _) => some inputs
  | _ => none

theorem next_of_prompted {c : AssistantCrew} {t : Nat} {inputs : List InputItem}
    (h : prompted c t = some inputs) : c.Next t (.respond inputs) := by
  unfold prompted at h
  split at h
  · next l sent k hs =>
      obtain rfl := Option.some.inj h
      exact ⟨l, k, hs⟩
  · cases h

def sampleInputs : List InputItem :=
  [.user "Any alerts?",
    .output (.obj [("type", .str "function_call"),
      ("name", .str "active_alerts"), ("arguments", .str "\x7b\x7d"),
      ("call_id", .str "call-1")]),
    .toolOutput (.str "call-1") sampleEvidence]

def secondInputs : List InputItem :=
  [.user "Any alerts?", .assistant "xx" "All is well.", .user "And now?"]

/-- The first answer, as it was settled. -/
def sampleSettlement : Settlement := ⟨sampleRun, sampleInputs⟩

/-- What the sample comes to, computed once. -/
theorem sample_facts :
    ((opened.sessions 1).isNone = true ∧ (answered.sessions 2).isNone = true ∧
      (answered.sessions 3).isNone = true) ∧
      sampleRun ∈ answered.world.runs ∧
      (history reanswered.world "token" "x").toOption = some sampleHistory ∧
      startTimes "op-1" reanswered.world.trail = [0, 0] ∧
      prompted reasking 3 = some secondInputs ∧
      sampleSettlement ∈ reasking.world.settled := by decide +kernel

theorem reached_answered : Reached sampleLib answered := by
  have hasking : Reached sampleLib asking := by
    refine ⟨sampleWorld, ⟨rfl, rfl, rfl, rfl, rfl⟩, ?_⟩
    exact steps_begin (steps_begin .refl rfl _) sample_facts.1.1 _
  exact hasking.steps (sampleReplies.run_turns (fun _ _ _ => trivial) _ _)

theorem reached_reasking : Reached sampleLib reasking :=
  reached_answered.steps (steps_begin .refl sample_facts.1.2.2 _)

theorem reached_reanswered : Reached sampleLib reanswered :=
  reached_reasking.steps (sampleReplies.run_turns (fun _ _ _ => trivial) _ _)

theorem steps_cancelledLate : AssistantSteps sampleLib answered cancelledLate :=
  steps_begin .refl sample_facts.1.2.1 _

theorem mem_answered : sampleRun ∈ answered.world.runs := sample_facts.2.1

theorem history_reanswered :
    history reanswered.world "token" "x" = .ok sampleHistory :=
  eq_ok_of_toOption sample_facts.2.2.1

theorem next_reasking : reasking.Next 3 (.respond secondInputs) :=
  next_of_prompted sample_facts.2.2.2.2.1

/-- The second prompt has called no tool: it rests on what the first answer was
made from. -/
theorem restsOn_reasking :
    RestsOn reasking.world.settled secondInputs "agent-1" := by
  have hanswer : InputItem.assistant "xx" "All is well." ∈ secondInputs :=
    List.mem_cons_of_mem _ List.mem_cons_self
  have htool : InputItem.toolOutput (.str "call-1") sampleEvidence ∈
      sampleInputs :=
    List.mem_cons_of_mem _ (List.mem_cons_of_mem _ List.mem_cons_self)
  exact .inherited hanswer sample_facts.2.2.2.2.2 rfl rfl
    (.observed htool List.mem_cons_self)

end Sample

/-! ## Admission -/

/-- Rows only go, end, or lose their body; a row that has ended only the
latter two. -/
structure Outlived (w w' : AssistantWorld) : Prop where
  drawn : ∀ id ∈ w.drawn, id ∈ w'.drawn
  rows : ∀ r' ∈ w'.runs, r'.id ∈ w.drawn → ∃ r ∈ w.runs, r.id = r'.id ∧
    (r.status ≠ .running → Cleared r r')

theorem outlived_refl (w : AssistantWorld) : Outlived w w :=
  ⟨fun _ hid => hid, fun r hr _ => ⟨r, hr, rfl, fun _ => .refl r⟩⟩

theorem Outlived.trans {u v w : AssistantWorld} (huv : Outlived u v)
    (hvw : Outlived v w) : Outlived u w where
  drawn id hid := hvw.drawn id (huv.drawn id hid)
  rows r' hr' hid := by
    obtain ⟨m, hm, hmid, hmr⟩ := hvw.rows r' hr' (huv.drawn _ hid)
    obtain ⟨r, hr, hrid, hrm⟩ := huv.rows m hm (hmid ▸ hid)
    refine ⟨r, hr, hrid.trans hmid, fun hover => ?_⟩
    have hcleared := hrm hover
    exact hcleared.trans (hmr (hcleared.status ▸ hover))

theorem outlived_of_change {w w' : AssistantWorld} (h : Sound w)
    (hc : Change w w') : Outlived w w' := by
  cases hc with
  | same => exact outlived_refl w
  | noted _ => exact ⟨fun _ hid => hid, (outlived_refl w).rows⟩
  | pruned _ =>
      refine ⟨fun _ hid => hid, fun r' hr' _ => ?_⟩
      obtain ⟨r, hr, hcleared⟩ := cleared_of_mem_prune hr'
      exact ⟨r, hr, hcleared.id.symm, fun _ => hcleared⟩
  | created _ hcreated =>
      obtain ⟨-, -, -, rfl⟩ := created_spec hcreated
      refine ⟨fun _ hid => List.mem_append_left _ hid, fun r' hr' _ => ?_⟩
      obtain ⟨r, hr, hcleared⟩ := cleared_of_mem_prune hr'
      exact ⟨r, hr, hcleared.id.symm, fun _ => hcleared⟩
  | reserved hid _ _ hreserved =>
      rcases reserved_spec hreserved with rfl | hrow
      · exact outlived_refl _
      · obtain ⟨row, rfl, -, -, -, -, -, -, -, -, -, -, -, rfl⟩ := hrow
        refine ⟨fun _ hid => List.mem_append_left _ hid,
          fun r' hr' hdrawn => ?_⟩
        rcases List.mem_append.mp hr' with hr' | hr'
        · exact ⟨r', hr', rfl, fun _ => .refl r'⟩
        · obtain rfl := List.mem_singleton.mp hr'
          exact absurd hdrawn hid
  | settled hkeeps hstatus _ hsettle =>
      obtain ⟨r, -, hset⟩ := settles_of_settle h.runIDs hstatus hsettle
      refine ⟨fun _ hid => hset.drawn ▸ hid, fun r' hr' _ => ?_⟩
      rcases hset.mem_runs hr' with rfl | ⟨hr', -⟩
      · exact ⟨r, hset.mem, (hkeeps r).1.symm,
          fun hover => absurd hset.running hover⟩
      · exact ⟨r', hr', rfl, fun _ => .refl r'⟩

theorem outlived_steps (h : Reached lib c) (hrun : AssistantSteps lib c c') :
    Outlived c.world c'.world :=
  related_steps outlived_refl (fun _ _ _ => .trans)
    (fun _ _ => outlived_of_change)
    (fun _ _ hd => ⟨fun _ hid => hd.2.2.2.2.2 ▸ hid, fun r hr _ =>
      ⟨r, hd.2.2.1 ▸ hr, rfl, fun _ => .refl r⟩⟩) h.good hrun

theorem filter_endings {settled : List Settlement} {s : Settlement}
    (hnodup : (settled.map (·.run.id)).Nodup) (hs : s ∈ settled) :
    (settled.map Settlement.ending).filter (fun e =>
      decide (e.1 = some s.run.id)) = [s.ending] := by
  have hfilter :
      settled.filter (fun t => decide (t.run.id = s.run.id)) = [s] := by
    refine List.perm_singleton.mp ((List.perm_ext_iff_of_nodup
      ((List.Nodup.of_map _ hnodup).filter _) (List.nodup_singleton s)).mpr
      fun t => ⟨fun ht => ?_, fun ht => ?_⟩)
    · obtain ⟨hmem, hid⟩ := List.mem_filter.mp ht
      exact List.mem_singleton.mpr
        (List.inj_on_of_nodup_map hnodup hmem hs (of_decide_eq_true hid))
    · obtain rfl := List.mem_singleton.mp ht
      exact List.mem_filter.mpr ⟨hs, decide_eq_true rfl⟩
  rw [List.filter_map, ← List.map_singleton, ← hfilter]
  refine congrArg _ (List.filter_congr fun t _ => ?_)
  simp [Settlement.ending]

/-- A run ends once. Whatever happens after, in any other session too, its row
is not written again, only cleared or deleted by pruning, and the trail has one
event that says it ended, with the status it ended in. -/
theorem run_ends_once (h : Reached lib c) (hrun : AssistantSteps lib c c')
    {r : AssistantRun} (hr : r ∈ c.world.runs) (hover : r.status ≠ .running) :
    (∀ r' ∈ c'.world.runs, r'.id = r.id → Cleared r r') ∧
      (c'.world.trail.filterMap Activity.ending).filter (fun e =>
        decide (e.1 = some r.id)) = [(some r.id, r.status.value)] := by
  have hsound := h.sound
  have hlater := (h.steps hrun).sound
  constructor
  · intro r' hr' hid
    obtain ⟨r₀, hr₀, hsame, hcleared⟩ :=
      (outlived_steps h hrun).rows r' hr' (hid ▸ hsound.runsDrawn r hr)
    obtain rfl := eq_of_id_eq hsound.runIDs hr₀ hr (hsame.trans hid)
    exact hcleared hover
  · obtain ⟨s, hs, hcleared⟩ := hsound.endsSettled r hr hover
    have hkept : s ∈ c'.world.settled :=
      (related_steps Rely.refl (fun _ _ _ => .trans)
        (fun _ _ hw hc => hc.rely hw) (fun _ _ => rely_of_drift) h.good
        hrun).settled s hs
    rw [hlater.trail, hcleared.id, filter_endings hlater.settledOnce hkept,
      Settlement.ending, hcleared.status]

/-- A cancellation of the completed run leaves it so. -/
theorem run_ends_once_sample :
    (∀ r' ∈ cancelledLate.world.runs, r'.id = sampleRun.id →
        Cleared sampleRun r') ∧
      (cancelledLate.world.trail.filterMap Activity.ending).filter (fun e =>
        decide (e.1 = some sampleRun.id)) = [(some "xx", "completed")] :=
  run_ends_once reached_answered steps_cancelledLate mem_answered (by decide)

/-! ## What an answer is -/

/-- What a run stores. A completed one has an answer, made within the limits
from evidence a tool gave, and where any of that was not simply observed the
answer is the caution. Any other one has a fixed text at most. -/
theorem answers_are_grounded (h : Reached lib c) {r : AssistantRun}
    {b : RunBody} (hr : r ∈ c.world.runs) (hb : r.body = some b) :
    (r.status = .completed →
      b.evidence ≠ [] ∧ r.toolCount = b.evidence.length ∧
        r.toolCount ≤ maxTools ∧ 0 ≤ r.usageTokens ∧
        r.usageTokens ≤ maxUsage ∧ b.answer ≠ "" ∧
        ((∃ e ∈ b.evidence, e.outcome ≠ "observed") →
          b.answer = cautionText)) ∧
      (r.status ≠ .completed → b.answer ∈ fixedAnswers) := by
  have hsound := h.sound
  by_cases hrunning : r.status = .running
  · refine ⟨fun hc => (nomatch hrunning.symm.trans hc), fun _ => ?_⟩
    rw [(hsound.waiting r hr hrunning b hb).1]
    exact List.mem_cons_self
  · obtain ⟨s, hs, hcleared⟩ := hsound.endsSettled r hr hrunning
    obtain rfl := hcleared.body hb
    have hended := hsound.ended s hs
    refine ⟨fun hc => ?_, fun hno => hended.incomplete hno b hb⟩
    obtain ⟨b', ha⟩ := hended.completed hc
    obtain rfl := Option.some.inj (hb.symm.trans ha.body)
    exact ⟨ha.evidence, ha.count, ha.most, ha.usage.1, ha.usage.2, ha.answer,
      ha.caution⟩

theorem answers_are_grounded_sample :
    sampleBody.evidence ≠ [] ∧
      sampleRun.toolCount = sampleBody.evidence.length ∧
      sampleRun.toolCount ≤ maxTools ∧ 0 ≤ sampleRun.usageTokens ∧
      sampleRun.usageTokens ≤ maxUsage ∧ sampleBody.answer ≠ "" ∧
      ((∃ e ∈ sampleBody.evidence, e.outcome ≠ "observed") →
        sampleBody.answer = cautionText) :=
  (answers_are_grounded reached_answered mem_answered rfl).1 rfl

/-! ## Who may be shown it -/

/-- The history of a conversation shows an answer only to an operator who may
now read every endpoint the provider had read about when it gave it, through
however many earlier answers. -/
theorem shown_answer_rests_on_visible (h : Reached lib c)
    {authorization conversationID : String} {reply : HistoryOut}
    (hreply : history c.world authorization conversationID = .ok reply)
    {view : RunView} (hview : view ∈ reply.runs)
    (hcompleted : view.status = .completed) (hopen : view.body ≠ restricted) :
    ∃ operator conversation, ∃ s ∈ c.world.settled,
      authorize c.world authorization conversationID =
        .ok (operator, conversation) ∧
      s.run.id = view.id ∧ s.run.body = some view.body ∧
      ∀ source, RestsOn c.world.settled s.prompt source →
        visible c.world operator conversation.clientID source = true := by
  have hsound := h.sound
  obtain ⟨operator, conversation, hauth, hrows⟩ := history_spec hreply
  obtain ⟨row, hrow, -, hpresent⟩ := hrows view hview
  obtain ⟨hid, hview⟩ := present_spec hpresent
  obtain ⟨hstatus, stored, hstored, hbody⟩ := hview hcompleted
  obtain ⟨s, hs, hcleared⟩ := hsound.endsSettled row hrow
    (hstatus ▸ RunStatus.noConfusion)
  obtain rfl := hcleared.body hstored
  rcases hbody with hbody | ⟨hbody, hvisible⟩
  · exact absurd hbody hopen
  · obtain ⟨b, hanswered⟩ := (hsound.ended s hs).completed hstatus
    obtain rfl := Option.some.inj (hstored.symm.trans hanswered.body)
    refine ⟨operator, conversation, s, hs, hauth, hid.symm, hbody ▸ hstored, ?_⟩
    exact fun source hsource => hvisible source (List.mem_append_left _
      (hsound.mem_of_restsOn hanswered.backed hsource))

theorem shown_answer_rests_on_visible_sample :
    ∃ operator conversation, ∃ s ∈ reanswered.world.settled,
      authorize reanswered.world "token" "x" = .ok (operator, conversation) ∧
      s.run.id = "xxx" ∧ s.run.body = some secondBody ∧
      ∀ source, RestsOn reanswered.world.settled s.prompt source →
        visible reanswered.world operator conversation.clientID source = true :=
  shown_answer_rests_on_visible reached_reanswered history_reanswered
    (List.mem_cons_of_mem _ (List.mem_singleton_self secondView)) rfl (by decide)

/-! ## What the provider is sent -/

/-- The session in seat `t` has passed a check of `targets`, in state `d`. -/
def CheckedIn (d : AssistantCrew) (t : Nat) (targets : List String) : Prop :=
  ∃ authorization conversationID runID operator conversation row,
    d.Next t (.checked authorization conversationID runID targets) ∧
      checked d.world authorization conversationID runID targets =
        .ok (operator, conversation, row)

theorem verified_of_does {w w' : AssistantWorld} {l l' : AssistantSession}
    {o : AssistantOp} {a : AssistantAns o} (h : does w l o a w' l') :
    l' = l ∨ ∃ authorization conversationID runID x,
      o = .checked authorization conversationID runID l'.verified ∧
        checked w authorization conversationID runID l'.verified = .ok x := by
  rcases h with h | ⟨_, _, _, rfl, _⟩
  · cases o with
    | checked authorization conversationID runID targets =>
        obtain ⟨rfl, -, rfl⟩ := h
        cases hc : checked w authorization conversationID runID targets with
        | ok x => exact .inr ⟨_, _, _, x, rfl, hc⟩
        | error e => exact .inl rfl
    | authorizeClient | authorize | history | findRequest | findRun | execute
    | cancel => exact .inl h.2.2
    | createConversation | reserve | respond => exact .inl h.2
    | record | finish => exact .inl h.2.1
    | prune => exact .inl h.2.2.2
  · exact .inl rfl

/-- Steps during which the session in seat `t` stays. -/
def Seated (lib : AssistantLib) (t : Nat) :
    AssistantCrew → AssistantCrew → Prop :=
  Relation.ReflTransGen fun c c' =>
    Crew.Step (rules lib) (fun _ _ _ => True) c c' ∧
      (c.sessions t).isSome = true ∧ (c'.sessions t).isSome = true

/-- What a session holds to be verified, it has checked. -/
theorem checked_of_verified (h : Reached lib c) {t : Nat}
    {l : AssistantSession} {p : Prog AssistantOp AssistantAns Unit}
    (hs : c.sessions t = some (l, p)) :
    l.verified = [] ∨ ∃ d, Reached lib d ∧ Seated lib t d c ∧
      CheckedIn d t l.verified := by
  obtain ⟨w, hfresh, hrun⟩ := h
  induction hrun generalizing l p with
  | refl => cases hs
  | @tail d c hrun hstep ih =>
      have hstays : ∀ m q, d.sessions t = some (m, q) → Seated lib t d c :=
        fun m q hu => .single ⟨hstep, by rw [hu]; rfl, by rw [hs]; rfl⟩
      -- the session was there, with what it has verified
      have hlater : ∀ q, d.sessions t = some (l, q) →
          l.verified = [] ∨ ∃ e, Reached lib e ∧ Seated lib t e c ∧
            CheckedIn e t l.verified := by
        intro q hu
        rcases ih hu with hnone | ⟨e, he, hseated, hchecked⟩
        · exact .inl hnone
        · exact .inr ⟨e, he, hseated.trans (hstays l q hu), hchecked⟩
      cases hstep with
      | start hfree hstarts =>
          simp only [Crew.seat, Function.update_apply] at hs
          split at hs
          · obtain ⟨rfl, rfl⟩ := Prod.mk.inj (Option.some.inj hs)
            exact .inl (hstarts.1 ▸ rfl)
          · exact hlater p hs
      | @act u m o k a w' l' hu hmay hdoes =>
          simp only [Crew.moved, Function.update_apply] at hs
          split at hs
          · next heq =>
              subst heq
              obtain ⟨rfl, rfl⟩ := Prod.mk.inj (Option.some.inj hs)
              rcases verified_of_does hdoes with rfl | hchecked
              · exact hlater _ hu
              · obtain ⟨authorization, conversationID, runID, x, rfl, hx⟩ :=
                  hchecked
                exact .inr ⟨d, ⟨w, hfresh, hrun⟩, hstays m _ hu, authorization,
                  conversationID, runID, x.1, x.2.1, x.2.2, ⟨m, k, hu⟩, hx⟩
          · exact hlater p hs
      | leave =>
          simp only [Crew.seat, Function.update_apply] at hs
          split at hs
          · cases hs
          · exact hlater p hs
      | drift _ => exact hlater p hs

theorem checked_spec {w : AssistantWorld}
    {authorization conversationID runID : String} {targets : List String}
    {operator : Operator} {conversation : AssistantConversation}
    {row : AssistantRun}
    (h : checked w authorization conversationID runID targets =
      .ok (operator, conversation, row)) :
    authorize w authorization conversationID = .ok (operator, conversation) ∧
      row.status = .running ∧ w.now < row.deadline ∧
      ∀ target ∈ targets,
        visible w operator conversation.clientID target = true := by
  obtain ⟨⟨operator', conversation'⟩, hauth, h⟩ := bind_eq_ok.mp h
  dsimp only at h
  split at h
  · cases h
  · obtain ⟨-, h⟩ := require_bind_eq_ok.mp h
    obtain ⟨hrunning, h⟩ := require_bind_eq_ok.mp h
    obtain ⟨htime, h⟩ := require_bind_eq_ok.mp h
    obtain ⟨htargets, h⟩ := unit_bind_eq_ok.mp h
    cases Except.ok.inj h
    exact ⟨hauth, hrunning, htime, require_eq_ok.mp htargets⟩

/-- When a session is about to send the provider a prompt that rests on an
endpoint, it has itself passed a check, of a run that was running and in time,
when the operator could read that endpoint. -/
theorem provider_sent_what_was_checked (h : Reached lib c) {t : Nat}
    {inputs : List InputItem} (hnext : c.Next t (.respond inputs))
    {source : String} (hsource : RestsOn c.world.settled inputs source) :
    ∃ d authorization conversationID runID targets operator conversation row,
      Reached lib d ∧ Seated lib t d c ∧
      d.Next t (.checked authorization conversationID runID targets) ∧
      checked d.world authorization conversationID runID targets =
        .ok (operator, conversation, row) ∧
      row.status = .running ∧ d.world.now < row.deadline ∧
      visible d.world operator conversation.clientID source = true := by
  obtain ⟨l, k, hs⟩ := hnext
  have hbacked : Backed c.world.settled inputs l.verified :=
    h.good.guard (fun _ => .refl) hs
  have hmem := h.sound.mem_of_restsOn hbacked hsource
  rcases checked_of_verified h hs with hnone | ⟨d, hd, hseated, hchecked⟩
  · exact absurd (hnone ▸ hmem) List.not_mem_nil
  · obtain ⟨authorization, conversationID, runID, operator, conversation, row,
      hask, hok⟩ := hchecked
    obtain ⟨-, hrunning, htime, htargets⟩ := checked_spec hok
    exact ⟨d, authorization, conversationID, runID, l.verified, operator,
      conversation, row, hd, hseated, hask, hok, hrunning, htime,
      htargets source hmem⟩

theorem provider_sent_what_was_checked_sample :
    ∃ d authorization conversationID runID targets operator conversation row,
      Reached sampleLib d ∧ Seated sampleLib 3 d reasking ∧
      d.Next 3 (.checked authorization conversationID runID targets) ∧
      checked d.world authorization conversationID runID targets =
        .ok (operator, conversation, row) ∧
      row.status = .running ∧ d.world.now < row.deadline ∧
      visible d.world operator conversation.clientID "agent-1" = true :=
  provider_sent_what_was_checked reached_reasking next_reasking restsOn_reasking

end Runs

end NodeLink.Server.Assistant
