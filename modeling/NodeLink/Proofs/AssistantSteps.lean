import NodeLink.Server.Assistant

/-!
# What the assistant's transactions keep

Every transaction is one of five changes to the tables. From that: a run has
one row and one settlement, its row says what the settlement says until
pruning clears it, and the trail has an event for each settlement in order.
What a completed run holds, and what its prompt rested on, was judged when it
was settled; a settlement only ever has earlier ones behind it.
-/

namespace NodeLink.Server.Assistant

open Lib

/-! ## What an answer rests on -/

/-- The endpoints a prompt rests on: what its tool outputs read, and what the
prompts of the answers in it rested on. -/
inductive RestsOn (settled : List Settlement) : List InputItem → String → Prop
  | observed {prompt callID result source} :
      .toolOutput callID result ∈ prompt → source ∈ result.sources →
        RestsOn settled prompt source
  | inherited {prompt runID text s source} :
      .assistant runID text ∈ prompt → s ∈ settled → s.run.id = runID →
        s.run.status = .completed → RestsOn settled s.prompt source →
          RestsOn settled prompt source

/-- What a prompt rests on is among `access`, as far as one step shows. -/
structure Backed (settled : List Settlement) (prompt : List InputItem)
    (access : List String) : Prop where
  tools : ∀ callID result, .toolOutput callID result ∈ prompt →
    ∀ source ∈ result.sources, source ∈ access
  prior : ∀ runID text, .assistant runID text ∈ prompt →
    ∃ s ∈ settled, s.run.id = runID ∧ s.run.status = .completed ∧
      ∀ b, s.run.body = some b → ∀ source ∈ b.targets, source ∈ access

theorem Backed.mono {settled settled' : List Settlement}
    {prompt : List InputItem} {access access' : List String}
    (h : Backed settled prompt access) (hs : ∀ s ∈ settled, s ∈ settled')
    (ha : ∀ source ∈ access, source ∈ access') :
    Backed settled' prompt access' where
  tools callID result hm source hsource :=
    ha source (h.tools callID result hm source hsource)
  prior runID text hm := by
    obtain ⟨s, hmem, hid, hcompleted, hb⟩ := h.prior runID text hm
    exact ⟨s, hs s hmem, hid, hcompleted, fun b hbody source hsource =>
      ha source (hb b hbody source hsource)⟩

/-- What a completed run holds. -/
structure Answered (settled : List Settlement) (s : Settlement) (b : RunBody) :
    Prop where
  body : s.run.body = some b
  evidence : b.evidence ≠ []
  count : s.run.toolCount = b.evidence.length
  most : s.run.toolCount ≤ maxTools
  usage : 0 ≤ s.run.usageTokens ∧ s.run.usageTokens ≤ maxUsage
  answer : b.answer ≠ ""
  caution : (∃ e ∈ b.evidence, e.outcome ≠ "observed") → b.answer = cautionText
  sources : ∀ source ∈ sourcesOf b.evidence, source ∈ b.accessEndpointIDs
  backed : Backed settled s.prompt b.accessEndpointIDs

/-- The answers of a run that is not completed. -/
def fixedAnswers : List String :=
  ["", accessChanged, "Investigation cancelled or timed out.",
    "Investigation cancelled.", investigationFailed, limitsReached]

/-- What a settlement leaves. -/
structure Ended (settled : List Settlement) (s : Settlement) : Prop where
  finished : s.run.status ≠ .running
  completed : s.run.status = .completed → ∃ b, Answered settled s b
  incomplete : s.run.status ≠ .completed → ∀ b, s.run.body = some b →
    b.answer ∈ fixedAnswers

theorem Answered.mono {settled settled' : List Settlement} {s : Settlement}
    {b : RunBody} (h : Answered settled s b)
    (hs : ∀ s ∈ settled, s ∈ settled') : Answered settled' s b :=
  { h with backed := h.backed.mono hs fun _ hsource => hsource }

theorem Ended.mono {settled settled' : List Settlement} {s : Settlement}
    (h : Ended settled s) (hs : ∀ s ∈ settled, s ∈ settled') :
    Ended settled' s where
  finished := h.finished
  completed hc := by
    obtain ⟨b, hb⟩ := h.completed hc
    exact ⟨b, hb.mono hs⟩
  incomplete := h.incomplete

/-! ## The changes -/

/-- A conversation a request has read: no other has its identifier. -/
def Known (w : AssistantWorld) (conversation : AssistantConversation) : Prop :=
  conversation.id ∈ w.drawn ∧
    ∀ c ∈ w.conversations, c.id = conversation.id → c = conversation

/-- An update of a run that leaves what it was admitted with. -/
def KeepsRun (edit : AssistantRun → AssistantRun) : Prop :=
  ∀ r, (edit r).id = r.id ∧ (edit r).conversationID = r.conversationID ∧
    (edit r).requestID = r.requestID ∧ (edit r).createdAt = r.createdAt ∧
    (edit r).deadline = r.deadline

/-- A run that waits holds its question alone. -/
def Waiting (r : AssistantRun) : Prop :=
  ∀ b, r.body = some b → b.answer = "" ∧ b.evidence = []

/-- A change to the tables. -/
inductive Change (w : AssistantWorld) : AssistantWorld → Prop
  | same : Change w w
  | noted {operatorID conversation runID tool outcome target}
      (htool : tool ≠ "run") :
      Change w (record w operatorID conversation runID tool outcome target)
  | pruned {time} (htime : time ≤ w.now) : Change w (prune w time)
  | created {operator clientID id row w'} (hid : id ∉ w.drawn)
      (h : createConversation w operator clientID id = .ok (row, w')) :
      Change w w'
  | reserved {operator conversation requestID question id answer w'}
      (hid : id ∉ w.drawn) (hknown : Known w conversation)
      (hown : conversation.operatorID = operator.id)
      (h : reserve w operator conversation requestID question id =
        .ok (answer, w')) : Change w w'
  | settled {operatorID conversation runID status prompt edit w'}
      (hkeeps : KeepsRun edit) (hstatus : ∀ r, (edit r).status = status)
      (hends : ∀ r, Waiting r → Ended w.settled ⟨edit r, prompt⟩)
      (h : settle w operatorID conversation runID status.value prompt edit =
        some w') : Change w w'

/-! ## What the transactions leave -/

section Tables

variable {w w' : AssistantWorld}

/-- A row, or that row without its body. -/
def Cleared (r r' : AssistantRun) : Prop := r' = r ∨ r' = { r with body := none }

theorem Cleared.refl (r : AssistantRun) : Cleared r r := .inl rfl

theorem Cleared.trans {a b c : AssistantRun} (hab : Cleared a b)
    (hbc : Cleared b c) : Cleared a c := by
  rcases hab with rfl | rfl
  · exact hbc
  · rcases hbc with rfl | rfl
    · exact .inr rfl
    · exact .inr rfl

theorem Cleared.id {r r' : AssistantRun} (h : Cleared r r') : r'.id = r.id := by
  rcases h with rfl | rfl <;> rfl

theorem Cleared.status {r r' : AssistantRun} (h : Cleared r r') :
    r'.status = r.status := by
  rcases h with rfl | rfl <;> rfl

theorem Cleared.body {r r' : AssistantRun} (h : Cleared r r') {b : RunBody}
    (hb : r'.body = some b) : r' = r := by
  rcases h with rfl | rfl
  · rfl
  · cases hb

theorem mem_prune_runs {time : Int} {r' : AssistantRun} :
    r' ∈ (prune w time).runs ↔ ∃ r ∈ w.runs,
      (if expiredBy w time r then { r with body := none } else r) = r' ∧
        ¬ (expiredBy w time r = true ∧ r.createdAt ≤ time - day) := by
  simp only [prune, List.mem_filter, List.mem_map]
  constructor
  · intro h
    obtain ⟨⟨r, hr, hr'⟩, hkept⟩ := h
    refine ⟨r, hr, hr', fun hgone => ?_⟩
    subst hr'
    rw [if_pos hgone.1] at hkept
    have hsame : expiredBy w time { r with body := none } = expiredBy w time r :=
      rfl
    simp [hsame, hgone.1, hgone.2] at hkept
  · intro h
    obtain ⟨r, hr, hr', hkept⟩ := h
    refine ⟨⟨r, hr, hr'⟩, ?_⟩
    subst hr'
    have hsame : expiredBy w time { r with body := none } = expiredBy w time r :=
      rfl
    split <;> simp_all

theorem cleared_of_mem_prune {time : Int} {r' : AssistantRun}
    (h : r' ∈ (prune w time).runs) : ∃ r ∈ w.runs, Cleared r r' := by
  obtain ⟨r, hr, rfl, -⟩ := mem_prune_runs.mp h
  refine ⟨r, hr, ?_⟩
  split
  · exact .inr rfl
  · exact .inl rfl

/-- What a row is known by survives in order. -/
theorem prune_runs_sublist {β : Type} (g : AssistantRun → β)
    (hg : ∀ r : AssistantRun, g { r with body := none } = g r) (time : Int) :
    ((prune w time).runs.map g).Sublist (w.runs.map g) := by
  refine (List.Sublist.map g List.filter_sublist).trans ?_
  rw [List.map_map]
  refine (List.map_congr_left fun r _ => ?_).symm ▸ List.Sublist.refl _
  simp only [Function.comp_apply]
  split
  · exact hg r
  · rfl

/-- Run `r`, which was running, is settled as `r'`. -/
structure Settles (w w' : AssistantWorld) (r r' : AssistantRun)
    (prompt : List InputItem) : Prop where
  mem : r ∈ w.runs
  running : r.status = .running
  runs : w'.runs = w.runs.map fun x => if x = r then r' else x
  settled : w'.settled = w.settled ++ [⟨r', prompt⟩]
  trail : ∃ entry : Activity, entry.tool = "run" ∧ entry.runID = some r.id ∧
    entry.outcome = r'.status.value ∧ w'.trail = w.trail ++ [entry]
  conversations : w'.conversations = w.conversations
  drawn : w'.drawn = w.drawn
  now : w'.now = w.now

theorem eq_of_id_eq {f : AssistantRun → String} {l : List AssistantRun}
    (hl : (l.map f).Nodup) {a b : AssistantRun} (ha : a ∈ l) (hb : b ∈ l)
    (h : f a = f b) : a = b := List.inj_on_of_nodup_map hl ha hb h

theorem filter_stillRunning (hids : (w.runs.map (·.id)).Nodup)
    {r : AssistantRun} (hr : r ∈ w.runs) (hrunning : r.status = .running) :
    w.runs.filter (stillRunning r.id) = [r] := by
  have hnodup : (w.runs.filter (stillRunning r.id)).Nodup :=
    (List.Nodup.of_map _ hids).filter _
  have hin : r ∈ w.runs.filter (stillRunning r.id) :=
    List.mem_filter.mpr ⟨hr, decide_eq_true ⟨rfl, hrunning⟩⟩
  refine List.perm_singleton.mp ((List.perm_ext_iff_of_nodup hnodup
    (List.nodup_singleton r)).mpr fun x => ⟨fun hx => ?_, fun hx => ?_⟩)
  · obtain ⟨hmem, hstill⟩ := List.mem_filter.mp hx
    exact List.mem_singleton.mpr
      (eq_of_id_eq hids hmem hr (of_decide_eq_true hstill).1)
  · exact List.mem_singleton.mp hx ▸ hin

theorem settles_of_settle (hids : (w.runs.map (·.id)).Nodup)
    {operatorID runID : String} {conversation : AssistantConversation}
    {status : RunStatus} {prompt : List InputItem}
    {edit : AssistantRun → AssistantRun} (hstatus : ∀ r, (edit r).status = status)
    (h : settle w operatorID conversation runID status.value prompt edit =
      some w') : ∃ r, r.id = runID ∧ Settles w w' r (edit r) prompt := by
  rw [settle] at h
  split at h
  · next hany =>
      obtain ⟨r, hr, hstill⟩ := List.any_eq_true.mp hany
      obtain ⟨rfl, hrunning⟩ := of_decide_eq_true hstill
      obtain rfl := Option.some.inj h
      refine ⟨r, rfl, hr, hrunning, ?_, ?_, ?_, rfl, rfl, rfl⟩
      · refine List.map_congr_left fun x hx => ?_
        by_cases hxr : x = r
        · rw [if_pos hxr, hxr, if_pos hstill]
        · rw [if_neg hxr, if_neg]
          exact fun hx' => hxr
            (eq_of_id_eq hids hx hr (of_decide_eq_true hx').1)
      · show w.settled ++ _ = _
        rw [filter_stillRunning hids hr hrunning]
        rfl
      · exact ⟨_, rfl, rfl, by rw [hstatus], rfl⟩
  · cases h

end Tables

/-! ## Runs and settlements -/

/-- What an event says of the end of a run. -/
def Activity.ending (a : Activity) : Option (Option String × String) :=
  if a.tool = "run" ∧ a.outcome ≠ "started" then some (a.runID, a.outcome)
  else none

def Settlement.ending (s : Settlement) : Option String × String :=
  (some s.run.id, s.run.status.value)

/-- The runs, their settlements and the trail agree. -/
structure Sound (w : AssistantWorld) : Prop where
  runIDs : (w.runs.map (·.id)).Nodup
  conversationIDs : (w.conversations.map (·.id)).Nodup
  runsDrawn : ∀ r ∈ w.runs, r.id ∈ w.drawn
  conversationsDrawn : ∀ c ∈ w.conversations, c.id ∈ w.drawn
  settledDrawn : ∀ s ∈ w.settled, s.run.id ∈ w.drawn
  settledOnce : (w.settled.map (·.run.id)).Nodup
  waiting : ∀ r ∈ w.runs, r.status = .running → Waiting r
  unsettled : ∀ r ∈ w.runs, r.status = .running →
    ∀ s ∈ w.settled, s.run.id ≠ r.id
  endsSettled : ∀ r ∈ w.runs, r.status ≠ .running →
    ∃ s ∈ w.settled, Cleared s.run r
  ended : ∀ s ∈ w.settled, Ended w.settled s
  trail : w.trail.filterMap Activity.ending = w.settled.map Settlement.ending

section Sound

variable {w w' : AssistantWorld}

theorem RunStatus.value_ne_started (status : RunStatus) :
    status.value ≠ "started" := by
  cases status <;> decide

theorem Sound.settled_eq (h : Sound w) {s t : Settlement} (hs : s ∈ w.settled)
    (ht : t ∈ w.settled) (hid : s.run.id = t.run.id) : s = t :=
  List.inj_on_of_nodup_map h.settledOnce hs ht hid

theorem sound_fresh (h : w.Fresh) : Sound w := by
  obtain ⟨hconversations, hruns, htrail, hsettled, hdrawn⟩ := h
  constructor <;> simp [hconversations, hruns, htrail, hsettled]

/-- An event that ends no run. -/
theorem Sound.record (h : Sound w) {operatorID tool outcome : String}
    {conversation : AssistantConversation} {runID target : Option String}
    (hno : ¬ (tool = "run" ∧ outcome ≠ "started")) :
    Sound (record w operatorID conversation runID tool outcome target) :=
  { h with
    trail := by
      show List.filterMap _ (w.trail ++ [_]) = w.settled.map _
      rw [List.filterMap_append, h.trail, List.filterMap_cons_none,
        List.filterMap_nil, List.append_nil]
      exact if_neg hno }

theorem Sound.prune (h : Sound w) (time : Int) : Sound (prune w time) where
  runIDs := (prune_runs_sublist (·.id) (fun _ => rfl) time).nodup h.runIDs
  conversationIDs :=
    (List.Sublist.map _ List.filter_sublist).nodup h.conversationIDs
  runsDrawn r' hr' := by
    obtain ⟨r, hr, hc⟩ := cleared_of_mem_prune hr'
    exact hc.id ▸ h.runsDrawn r hr
  conversationsDrawn c hc := h.conversationsDrawn c (List.mem_filter.mp hc).1
  settledDrawn := h.settledDrawn
  settledOnce := h.settledOnce
  waiting r' hr' hrunning b hb := by
    obtain ⟨r, hr, hc⟩ := cleared_of_mem_prune hr'
    obtain rfl := hc.body hb
    exact h.waiting r' hr hrunning b hb
  unsettled r' hr' hrunning s hs := by
    obtain ⟨r, hr, hc⟩ := cleared_of_mem_prune hr'
    exact hc.id ▸ h.unsettled r hr (hc.status ▸ hrunning) s hs
  endsSettled r' hr' hover := by
    obtain ⟨r, hr, hc⟩ := cleared_of_mem_prune hr'
    obtain ⟨s, hs, hsr⟩ := h.endsSettled r hr (hc.status ▸ hover)
    exact ⟨s, hs, hsr.trans hc⟩
  ended := h.ended
  trail := h.trail

theorem Sound.addConversation (h : Sound w) {row : AssistantConversation}
    (hid : row.id ∉ w.drawn) :
    Sound { w with
      conversations := w.conversations ++ [row]
      drawn := w.drawn ++ [row.id] } :=
  { h with
    conversationIDs := by
      show (List.map _ (w.conversations ++ [row])).Nodup
      rw [List.map_append, List.nodup_append]
      refine ⟨h.conversationIDs, List.nodup_singleton _, ?_⟩
      intro id hmem id' hid' heq
      obtain ⟨c, hc, rfl⟩ := List.mem_map.mp hmem
      obtain rfl := List.mem_singleton.mp hid'
      have heq : c.id = row.id := heq
      exact hid (heq ▸ h.conversationsDrawn c hc)
    runsDrawn := fun r hr => List.mem_append_left _ (h.runsDrawn r hr)
    conversationsDrawn := by
      intro c hc
      rcases List.mem_append.mp hc with hc | hc
      · exact List.mem_append_left _ (h.conversationsDrawn c hc)
      · obtain rfl := List.mem_singleton.mp hc
        exact List.mem_append_right _ List.mem_cons_self
    settledDrawn := fun s hs => List.mem_append_left _ (h.settledDrawn s hs) }

theorem Sound.addRun (h : Sound w) {row : AssistantRun}
    (hid : row.id ∉ w.drawn) (hrunning : row.status = .running)
    (hwaiting : Waiting row) :
    Sound { w with runs := w.runs ++ [row], drawn := w.drawn ++ [row.id] } :=
  { h with
    runIDs := by
      show (List.map _ (w.runs ++ [row])).Nodup
      rw [List.map_append, List.nodup_append]
      refine ⟨h.runIDs, List.nodup_singleton _, ?_⟩
      intro id hmem id' hid' heq
      obtain ⟨r, hr, rfl⟩ := List.mem_map.mp hmem
      obtain rfl := List.mem_singleton.mp hid'
      have heq : r.id = row.id := heq
      exact hid (heq ▸ h.runsDrawn r hr)
    runsDrawn := by
      intro r hr
      rcases List.mem_append.mp hr with hr | hr
      · exact List.mem_append_left _ (h.runsDrawn r hr)
      · obtain rfl := List.mem_singleton.mp hr
        exact List.mem_append_right _ List.mem_cons_self
    conversationsDrawn := fun c hc =>
      List.mem_append_left _ (h.conversationsDrawn c hc)
    settledDrawn := fun s hs => List.mem_append_left _ (h.settledDrawn s hs)
    waiting := by
      intro r hr
      rcases List.mem_append.mp hr with hr | hr
      · exact h.waiting r hr
      · obtain rfl := List.mem_singleton.mp hr
        exact fun _ => hwaiting
    unsettled := by
      intro r hr hrun s hs heq
      rcases List.mem_append.mp hr with hr | hr
      · exact h.unsettled r hr hrun s hs heq
      · obtain rfl := List.mem_singleton.mp hr
        exact hid (heq ▸ h.settledDrawn s hs)
    endsSettled := by
      intro r hr hover
      rcases List.mem_append.mp hr with hr | hr
      · exact h.endsSettled r hr hover
      · obtain rfl := List.mem_singleton.mp hr
        exact absurd hrunning hover }

/-- A row after a settlement: the settled one, or one that was there. -/
theorem Settles.mem_runs {r r' : AssistantRun} {prompt : List InputItem}
    (hset : Settles w w' r r' prompt) {x : AssistantRun} (hx : x ∈ w'.runs) :
    x = r' ∨ x ∈ w.runs ∧ x ≠ r := by
  rw [hset.runs] at hx
  obtain ⟨y, hy, rfl⟩ := List.mem_map.mp hx
  split
  · exact .inl rfl
  · next hne => exact .inr ⟨hy, hne⟩

theorem Settles.map_runs {r r' : AssistantRun} {prompt : List InputItem}
    (hset : Settles w w' r r' prompt) {β : Type} (g : AssistantRun → β)
    (hg : g r' = g r) : w'.runs.map g = w.runs.map g := by
  rw [hset.runs, List.map_map]
  refine List.map_congr_left fun x _ => ?_
  simp only [Function.comp_apply]
  split
  · next heq => rw [hg, heq]
  · rfl

theorem Sound.settles (h : Sound w) {r r' : AssistantRun}
    {prompt : List InputItem} (hset : Settles w w' r r' prompt)
    (hid : r'.id = r.id) (hends : Ended w.settled ⟨r', prompt⟩) : Sound w' := by
  have hgrows : ∀ s ∈ w.settled, s ∈ w'.settled :=
    fun s hs => hset.settled ▸ List.mem_append_left _ hs
  have hnew : ∀ s ∈ w'.settled, s ∈ w.settled ∨ s = ⟨r', prompt⟩ := by
    intro s hs
    rw [hset.settled] at hs
    exact (List.mem_append.mp hs).imp_right List.mem_singleton.mp
  have hfree : ∀ s ∈ w.settled, s.run.id ≠ r.id :=
    h.unsettled r hset.mem hset.running
  constructor
  case runIDs =>
    rw [hset.map_runs (·.id) hid]
    exact h.runIDs
  case conversationIDs => exact hset.conversations ▸ h.conversationIDs
  case runsDrawn =>
    intro x hx
    rw [hset.drawn]
    rcases hset.mem_runs hx with rfl | ⟨hx, -⟩
    · exact hid ▸ h.runsDrawn r hset.mem
    · exact h.runsDrawn x hx
  case conversationsDrawn =>
    rw [hset.drawn, hset.conversations]
    exact h.conversationsDrawn
  case settledDrawn =>
    intro s hs
    rw [hset.drawn]
    rcases hnew s hs with hs | rfl
    · exact h.settledDrawn s hs
    · exact hid ▸ h.runsDrawn r hset.mem
  case settledOnce =>
    rw [hset.settled, List.map_append, List.nodup_append]
    refine ⟨h.settledOnce, List.nodup_singleton _, ?_⟩
    intro id hmem id' hid' heq
    obtain ⟨s, hs, rfl⟩ := List.mem_map.mp hmem
    obtain rfl := List.mem_singleton.mp hid'
    exact hfree s hs (heq.trans hid)
  case waiting =>
    intro x hx hrunning
    rcases hset.mem_runs hx with rfl | ⟨hx, -⟩
    · exact absurd hrunning hends.finished
    · exact h.waiting x hx hrunning
  case unsettled =>
    intro x hx hrunning s hs heq
    rcases hset.mem_runs hx with rfl | ⟨hx, hne⟩
    · exact hends.finished hrunning
    · rcases hnew s hs with hs | rfl
      · exact h.unsettled x hx hrunning s hs heq
      · exact hne (eq_of_id_eq h.runIDs hx hset.mem (heq.symm.trans hid))
  case endsSettled =>
    intro x hx hover
    rcases hset.mem_runs hx with rfl | ⟨hx, -⟩
    · refine ⟨⟨x, prompt⟩, ?_, .refl x⟩
      rw [hset.settled]
      exact List.mem_append_right _ List.mem_cons_self
    · obtain ⟨s, hs, hc⟩ := h.endsSettled x hx hover
      exact ⟨s, hgrows s hs, hc⟩
  case ended =>
    intro s hs
    rcases hnew s hs with hs | rfl
    · exact (h.ended s hs).mono hgrows
    · exact hends.mono hgrows
  case trail =>
    obtain ⟨entry, htool, hrun, houtcome, htrail⟩ := hset.trail
    have hentry : entry.ending = some (Settlement.ending ⟨r', prompt⟩) := by
      have hne := houtcome ▸ RunStatus.value_ne_started r'.status
      rw [Activity.ending, if_pos ⟨htool, hne⟩, hrun, houtcome,
        Settlement.ending, hid]
    rw [htrail, List.filterMap_append, h.trail, hset.settled, List.map_append,
      List.filterMap_cons_some hentry]
    rfl

theorem created_spec {operator : Operator} {clientID id : String}
    {row : AssistantConversation}
    (h : createConversation w operator clientID id = .ok (row, w')) :
    (prune w w.now).conversations.countP (fun c =>
        decide (c.operatorID = operator.id ∧ w.now < c.expiresAt)) <
      maxConversations ∧
      row.id = id ∧ row.operatorID = operator.id ∧
      w' = record { prune w w.now with
        conversations := (prune w w.now).conversations ++ [row]
        drawn := w.drawn ++ [id] } operator.id row none "conversation" "created"
        none := by
  obtain ⟨hcount, h⟩ := require_bind_eq_ok.mp h
  obtain ⟨rfl, rfl⟩ := Prod.mk.inj (Except.ok.inj h)
  exact ⟨hcount, rfl, rfl, rfl⟩

/-- A reservation finds the run of an earlier request, or adds one. -/
theorem reserved_spec {operator : Operator}
    {conversation : AssistantConversation} {requestID question id : String}
    {answer : String × Bool}
    (h : reserve w operator conversation requestID question id =
      .ok (answer, w')) :
    w' = w ∨ ∃ row : AssistantRun, row.id = id ∧ row.status = .running ∧
      Waiting row ∧ row.conversationID = conversation.id ∧
      row.requestID = requestID ∧ row.createdAt = w.now ∧
      row.deadline = w.now + maxSeconds * second ∧
      (∀ r ∈ w.runs, ¬ (r.conversationID = conversation.id ∧
        r.requestID = requestID)) ∧
      (∀ r ∈ w.runs, owns w operator.id r = true →
        ¬ (r.status = .running ∧ w.now < r.deadline)) ∧
      w.runs.countP (fun r => owns w operator.id r &&
        decide (w.now - day < r.createdAt)) < maxDailyRuns ∧
      w.runs.countP (fun r => decide (r.conversationID = conversation.id)) <
        maxConversationRuns ∧
      (∃ c ∈ w.conversations, c.id = conversation.id) ∧
      w' = record { w with runs := w.runs ++ [row], drawn := w.drawn ++ [id] }
        operator.id conversation (some id) "run" "started" none := by
  rw [reserve] at h
  split at h
  · obtain ⟨-, rfl⟩ := Prod.mk.inj (Except.ok.inj h)
    exact .inl rfl
  · next hnew =>
      obtain ⟨hlive, h⟩ := require_bind_eq_ok.mp h
      obtain ⟨⟨hdaily, hcount⟩, h⟩ := require_bind_eq_ok.mp h
      obtain ⟨hkey, h⟩ := require_bind_eq_ok.mp h
      obtain ⟨-, rfl⟩ := Prod.mk.inj (Except.ok.inj h)
      refine .inr ⟨_, rfl, rfl, ?_, rfl, rfl, rfl, rfl, ?_, ?_, hdaily, hcount,
        hkey, rfl⟩
      · intro b hb
        obtain rfl := Option.some.inj hb
        exact ⟨rfl, rfl⟩
      · exact fun r hr hsame =>
          List.find?_eq_none.mp hnew r hr (decide_eq_true hsame)
      · intro r hr hown hrun
        refine hlive (List.any_eq_true.mpr ⟨r, hr, ?_⟩)
        rw [hown, decide_eq_true hrun]
        rfl

theorem Sound.change (h : Sound w) (hc : Change w w') : Sound w' := by
  cases hc with
  | same => exact h
  | noted htool => exact h.record fun hno => htool hno.1
  | pruned _ => exact h.prune _
  | created hid hcreated =>
      obtain ⟨-, hrow, -, rfl⟩ := created_spec hcreated
      have hadded := (h.prune w.now).addConversation
        (show _ ∉ w.drawn from hrow ▸ hid)
      exact (hrow ▸ hadded).record (by decide)
  | reserved hid _ _ hreserved =>
      rcases reserved_spec hreserved with rfl | hrow
      · exact h
      · obtain ⟨row, rfl, hrunning, hwaiting, -, -, -, -, -, -, -, -, -, rfl⟩ :=
          hrow
        exact (h.addRun hid hrunning hwaiting).record (by decide)
  | settled hkeeps hstatus hends hsettle =>
      obtain ⟨r, -, hset⟩ := settles_of_settle h.runIDs hstatus hsettle
      exact h.settles hset (hkeeps r).1
        (hends r (h.waiting r hset.mem hset.running))

end Sound

/-- What one step shows of a prompt holds of all it rests on: every answer in
it was judged so when it was settled. -/
theorem Sound.mem_of_restsOn {w : AssistantWorld} (h : Sound w)
    {prompt : List InputItem} {source : String} {access : List String}
    (hb : Backed w.settled prompt access)
    (hr : RestsOn w.settled prompt source) : source ∈ access := by
  induction hr generalizing access with
  | observed hm hsource => exact hb.tools _ _ hm _ hsource
  | inherited hm hs hid hcompleted _ ih =>
      obtain ⟨t, ht, htid, -, haccess⟩ := hb.prior _ _ hm
      obtain rfl := h.settled_eq hs ht (hid.trans htid.symm)
      obtain ⟨b, hanswered⟩ := (h.ended _ hs).completed hcompleted
      exact haccess b hanswered.body _
        (List.mem_append_left _ (ih hanswered.backed))

/-! ## What others leave in place -/

/-- What stays true of the world while others act. -/
structure Rely (w w' : AssistantWorld) : Prop where
  settled : ∀ s ∈ w.settled, s ∈ w'.settled
  drawn : ∀ id ∈ w.drawn, id ∈ w'.drawn
  conversations : ∀ c ∈ w'.conversations,
    c ∈ w.conversations ∨ c.id ∉ w.drawn

theorem Rely.refl (w : AssistantWorld) : Rely w w :=
  ⟨fun _ hs => hs, fun _ hid => hid, fun _ hc => .inl hc⟩

theorem Rely.trans {u v w : AssistantWorld} (huv : Rely u v) (hvw : Rely v w) :
    Rely u w where
  settled s hs := hvw.settled s (huv.settled s hs)
  drawn id hid := hvw.drawn id (huv.drawn id hid)
  conversations c hc := by
    rcases hvw.conversations c hc with hc | hc
    · exact huv.conversations c hc
    · exact .inr fun hdrawn => hc (huv.drawn _ hdrawn)

theorem rely_of_drift {w w' : AssistantWorld} (h : drift w w') : Rely w w' := by
  obtain ⟨-, hconversations, -, -, hsettled, hdrawn⟩ := h
  exact ⟨fun s hs => hsettled ▸ hs, fun id hid => hdrawn ▸ hid,
    fun c hc => .inl (hconversations ▸ hc)⟩

theorem Known.rely {w w' : AssistantWorld}
    {conversation : AssistantConversation} (h : Known w conversation)
    (hr : Rely w w') : Known w' conversation := by
  refine ⟨hr.drawn _ h.1, fun c hc heq => ?_⟩
  rcases hr.conversations c hc with hc | hc
  · exact h.2 c hc heq
  · exact absurd (heq ▸ h.1) hc

theorem Sound.known {w : AssistantWorld} (h : Sound w)
    {conversation : AssistantConversation}
    (hc : conversation ∈ w.conversations) : Known w conversation :=
  ⟨h.conversationsDrawn _ hc, fun _ hc' heq =>
    List.inj_on_of_nodup_map h.conversationIDs hc' hc heq⟩

theorem Change.rely {w w' : AssistantWorld} (h : Sound w) (hc : Change w w') :
    Rely w w' := by
  cases hc with
  | same => exact .refl w
  | noted _ => exact ⟨fun _ hs => hs, fun _ hid => hid, fun _ hc => .inl hc⟩
  | pruned _ =>
      exact ⟨fun _ hs => hs, fun _ hid => hid,
        fun _ hc => .inl (List.mem_filter.mp hc).1⟩
  | created hid hcreated =>
      obtain ⟨-, hrow, -, rfl⟩ := created_spec hcreated
      refine ⟨fun _ hs => hs, fun _ hd => List.mem_append_left _ hd,
        fun c hc => ?_⟩
      rcases List.mem_append.mp hc with hc | hc
      · exact .inl (List.mem_filter.mp hc).1
      · obtain rfl := List.mem_singleton.mp hc
        exact .inr (hrow ▸ hid)
  | reserved _ _ _ hreserved =>
      rcases reserved_spec hreserved with rfl | hrow
      · exact .refl _
      · obtain ⟨row, -, -, -, -, -, -, -, -, -, -, -, -, rfl⟩ := hrow
        exact ⟨fun _ hs => hs, fun _ hd => List.mem_append_left _ hd,
          fun _ hc => .inl hc⟩
  | settled _ hstatus _ hsettle =>
      obtain ⟨r, -, hset⟩ := settles_of_settle h.runIDs hstatus hsettle
      exact ⟨fun _ hs => hset.settled ▸ List.mem_append_left _ hs,
        fun _ hd => hset.drawn ▸ hd, fun _ hc => .inl (hset.conversations ▸ hc)⟩

/-! ## The guards -/

/-- What a request owes before it takes a step. -/
def Guard (w : AssistantWorld) (l : AssistantSession) : AssistantOp → Prop
  | .reserve operator conversation _ _ =>
    Known w conversation ∧ conversation.operatorID = operator.id
  | .record _ _ _ tool _ _ => tool ≠ "run"
  | .respond inputs => Backed w.settled inputs l.verified
  | .finish _ _ e => ∀ r, Waiting r → Ended w.settled ⟨e.edit r, e.prompt⟩
  | _ => True

theorem ended_cancel {settled : List Settlement} {r : AssistantRun}
    (hr : Waiting r) :
    Ended settled ⟨{ r with status := .cancelled }, []⟩ where
  finished := RunStatus.noConfusion
  completed hc := RunStatus.noConfusion hc
  incomplete _ b hb := by
    rw [(hr b hb).1]
    exact List.mem_cons_self

theorem change_of_commits {α : Type} {w w' : AssistantWorld}
    {outcome : Except AssistantFault (α × AssistantWorld)}
    {a : Except AssistantFault α} (h : Commits w outcome a w')
    (hok : ∀ x v, outcome = .ok (x, v) → Change w v) : Change w w' := by
  cases outcome with
  | ok x => exact h.2 ▸ hok x.1 x.2 rfl
  | error e => exact h.2 ▸ .same

theorem change_of_happens {w w' : AssistantWorld} {l l' : AssistantSession}
    {o : AssistantOp} {a : AssistantAns o} (hguard : Guard w l o)
    (h : happens w l o a w' l') : Change w w' := by
  cases o with
  | authorizeClient | authorize | checked | history | findRequest | findRun
  | execute => exact h.2.1 ▸ .same
  | respond => exact h.1 ▸ .same
  | createConversation operator clientID =>
      obtain ⟨⟨id, hid, hcommits⟩, -⟩ := h
      exact change_of_commits hcommits fun _ _ hok => .created hid hok
  | reserve operator conversation requestID question =>
      obtain ⟨⟨id, hid, hcommits⟩, -⟩ := h
      exact change_of_commits hcommits fun _ _ hok =>
        .reserved hid hguard.1 hguard.2 hok
  | record operator conversation runID tool outcome target =>
      exact h.2.2 ▸ .noted hguard
  | cancel operator conversation runID =>
      obtain ⟨-, rfl, -⟩ := h
      cases hs : settle w operator.id conversation runID
        RunStatus.cancelled.value [] fun r => { r with status := .cancelled } with
      | none => exact hs.symm ▸ .same
      | some v =>
          have hkeeps : KeepsRun fun r => { r with status := .cancelled } :=
            fun r => ⟨rfl, rfl, rfl, rfl, rfl⟩
          have hchange : Change w v :=
            .settled hkeeps (fun _ => rfl) (fun _ hr => ended_cancel hr) hs
          exact hs.symm ▸ hchange
  | finish conversation runID e =>
      obtain ⟨-, -, rfl⟩ := h
      cases hs : settle w conversation.operatorID conversation runID
        e.status.value e.prompt e.edit with
      | none => exact .same
      | some v =>
          have hkeeps : KeepsRun e.edit := fun r => ⟨rfl, rfl, rfl, rfl, rfl⟩
          exact .settled hkeeps (fun _ => rfl) hguard hs
  | prune time =>
      obtain ⟨htime, -, rfl, -⟩ := h
      exact .pruned htime

theorem change_of_does {w w' : AssistantWorld} {l l' : AssistantSession}
    {o : AssistantOp} {a : AssistantAns o} (hguard : Guard w l o)
    (h : does w l o a w' l') : Change w w' := by
  rcases h with h | ⟨_, _, _, _, rfl | ⟨b, m, h⟩⟩
  · exact change_of_happens hguard h
  · exact .same
  · exact change_of_happens hguard h

end NodeLink.Server.Assistant
