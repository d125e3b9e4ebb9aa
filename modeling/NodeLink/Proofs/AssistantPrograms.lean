import Mathlib.Data.List.Dedup
import NodeLink.Lib.Loops
import NodeLink.Proofs.AssistantSteps

/-!
# The assistant's requests keep their guards

Round by round: what the prompt of a run shows is always among the endpoints
its evidence and the answers it has taken up name, these are what each check is
asked about, and the same set is stored with the answer. So the provider is
only sent what was just checked, and a run is only completed with all that its
answer rests on.
-/

namespace NodeLink.Server.Assistant

open Lib

/-! ## What history shows -/

/-- A view of a completed run that is not restricted is of its settlement. -/
def Shown (settled : List Settlement) (view : RunView) : Prop :=
  view.status = .completed → view.body ≠ restricted →
    ∃ s ∈ settled, s.run.id = view.id ∧ s.run.status = .completed ∧
      s.run.body = some view.body

section History

variable {w : AssistantWorld} {operator : Operator}
  {conversation : AssistantConversation}

/-- What `present` makes of a row. -/
theorem present_spec {row : AssistantRun} {view : RunView}
    (h : present w operator conversation row = .ok view) :
    view.id = row.id ∧ (view.status = .completed →
      row.status = .completed ∧ ∃ stored, row.body = some stored ∧
        (view.body = restricted ∨ view.body = stored ∧
          ∀ source ∈ stored.targets,
            visible w operator conversation.clientID source = true)) := by
  rw [present] at h
  obtain ⟨stored, hstored, h⟩ := bind_eq_ok.mp h
  have hbody : row.body = some stored := by
    rw [unsealBody] at hstored
    split at hstored
    · cases hstored
    · next hrow => rw [hrow, Except.ok.inj hstored]
  by_cases hlate : row.status = .running ∧ row.deadline ≤ w.now
  · rw [if_pos hlate] at h
    obtain rfl := Except.ok.inj h
    exact ⟨rfl, fun hc => RunStatus.noConfusion hc⟩
  · rw [if_neg hlate] at h
    obtain rfl := Except.ok.inj h
    refine ⟨rfl, fun hc => ⟨hc, stored, hbody, ?_⟩⟩
    cases htargets : checkTargets w operator conversation.clientID
      stored.targets with
    | ok u => exact .inr ⟨rfl, require_eq_ok.mp htargets⟩
    | error e => exact .inl rfl

theorem history_spec {authorization conversationID : String}
    {reply : HistoryOut}
    (h : history w authorization conversationID = .ok reply) :
    ∃ operator conversation,
      authorize w authorization conversationID = .ok (operator, conversation) ∧
      ∀ view ∈ reply.runs, ∃ row ∈ w.runs,
        row.conversationID = conversationID ∧
          present w operator conversation row = .ok view := by
  obtain ⟨⟨operator, conversation⟩, hauth, h⟩ := bind_eq_ok.mp h
  obtain ⟨runs, hruns, h⟩ := bind_eq_ok.mp h
  obtain rfl := Except.ok.inj h
  refine ⟨operator, conversation, hauth, fun view hview => ?_⟩
  obtain ⟨i, hi, rfl⟩ := List.mem_iff_getElem.mp hview
  have hall := mapM_eq_ok_iff.mp hruns
  have hrow := hall.get (hall.length_eq ▸ hi) hi
  have hmem := List.mem_of_mem_take (List.get_mem _ ⟨i, hall.length_eq ▸ hi⟩)
  obtain ⟨hin, hconv⟩ := List.mem_filter.mp ((List.mem_insertionSort _).mp hmem)
  exact ⟨_, hin, of_decide_eq_true hconv, hrow⟩

theorem shown_of_history (hw : Sound w) {authorization conversationID : String}
    {reply : HistoryOut}
    (h : history w authorization conversationID = .ok reply) :
    ∀ view ∈ reply.runs, Shown w.settled view := by
  intro view hview hcompleted hopen
  obtain ⟨_, _, -, hrows⟩ := history_spec h
  obtain ⟨row, hrow, -, hpresent⟩ := hrows view hview
  obtain ⟨hid, hview⟩ := present_spec hpresent
  obtain ⟨hstatus, stored, hstored, hbody⟩ := hview hcompleted
  obtain ⟨s, hs, hcleared⟩ := hw.endsSettled row hrow
    (hstatus ▸ RunStatus.noConfusion)
  rcases hbody with hbody | ⟨hbody, -⟩
  · exact absurd hbody hopen
  · have hsame := hcleared.body hstored
    exact ⟨s, hs, hid ▸ congrArg _ hsame.symm, hsame ▸ hstatus,
      hbody ▸ hsame ▸ hstored⟩

end History

/-! ## The rules for a run -/

/-- A failure leaves a run that is not completed. -/
def Reaching {α : Type}
    (P : α → RunVars → AssistantWorld → AssistantSession → Prop) :
    Except AssistantFault α → RunVars → AssistantWorld → AssistantSession → Prop
  | .ok a, v, w, l => P a v w l
  | .error _, v, _, _ => v.outcome = .failed

section Rules

variable {lib : AssistantLib} {α β : Type}
  {P : α → RunVars → AssistantWorld → AssistantSession → Prop}
  {P' : β → RunVars → AssistantWorld → AssistantSession → Prop}
  {v : RunVars} {w : AssistantWorld} {l : AssistantSession}

/-- From here `x` keeps the guards, and `P` holds of what it answers. -/
def Goes (lib : AssistantLib)
    (P : α → RunVars → AssistantWorld → AssistantSession → Prop) (x : RunM α)
    (v : RunVars) (w : AssistantWorld) (l : AssistantSession) : Prop :=
  Crew.holds (rules lib) Sound (fun _ => Rely) Guard (Reaching P) x v w l

theorem goes_pure {a : α} (h : P a v w l) : Goes lib P (pure a) v w l := h

theorem goes_throw {e : AssistantFault} (h : v.outcome = .failed) :
    Goes lib P (throw e) v w l := h

theorem goes_bind {x : RunM α} {f : α → RunM β} (hx : Goes lib P x v w l)
    (hf : ∀ a v' w' l', P a v' w' l' → Goes lib P' (f a) v' w' l') :
    Goes lib P' (x >>= f) v w l := by
  refine Crew.holds_bind (Crew.holds_mono hx fun r v' w' l' hr => ?_)
  cases r with
  | ok a =>
      refine ⟨fun b hb => ?_, fun e he => nomatch he⟩
      obtain rfl := Except.ok.inj hb
      exact hf a v' w' l' hr
  | error e => exact ⟨fun b hb => (nomatch hb), fun _ _ => hr⟩

theorem goes_get {f : RunVars → RunM β} (h : Goes lib P' (f v) v w l) :
    Goes lib P' (get >>= f) v w l := h

theorem goes_modify {g : RunVars → RunVars} {f : Unit → RunM β}
    (h : Goes lib P' (f ()) (g v) w l) :
    Goes lib P' (modify g >>= f) v w l := h

theorem goes_ofExcept {x : Except AssistantFault α} {f : α → RunM β}
    (hv : v.outcome = .failed)
    (h : ∀ a, x = .ok a → Goes lib P' (f a) v w l) :
    Goes lib P' (VarProg.ofExcept x >>= f) v w l := by
  refine Crew.holds_bind (Crew.holds_ofExcept ⟨h, fun e he => ?_⟩)
  exact hv

/-- A step of a run, with what it answers when it is not interrupted. -/
theorem goes_ask {o : AssistantOp} {f : AssistantRes o → RunM β}
    (hv : v.outcome = .failed)
    (h : ∀ u, Sound u → Rely w u → Guard u l o ∧
      ∀ a u' l', happens u l o (.ok a) u' l' → Sound u' → Rely w u' →
        Goes lib P' (f a) v u' l') :
    Goes lib P' (ask o >>= f) v w l := by
  refine Crew.holds_bind (Crew.holds_ask fun u hu hr => ?_)
  obtain ⟨hguard, hgo⟩ := h u hu hr
  refine ⟨hguard, fun a u' l' hd => ⟨fun b hb => ?_, fun e he => ?_⟩⟩
  · obtain rfl : a = .ok b := hb
    rcases hd with hd | ⟨_, _, hfault, _⟩
    · have hchange := change_of_happens hguard hd
      exact hgo b u' l' hd (hu.change hchange) (hr.trans (hchange.rely hu))
    · cases hfault
  · obtain rfl : a = .error e := he
    exact hv

theorem goes_modifyLast {g : RunVars → RunVars}
    {P : Unit → RunVars → AssistantWorld → AssistantSession → Prop}
    (h : P () (g v) w l) : Goes lib P (modify g) v w l := h

/-- A limit: past it the run fails. -/
theorem goes_unless {p : Prop} [Decidable p] {e : AssistantFault}
    {f : Unit → RunM β} {x : RunM β} (hv : v.outcome = .failed)
    (h : ¬ p → Goes lib P' x v w l) :
    Goes lib P' (if p then throw e >>= f else x) v w l := by
  by_cases hp : p
  · rw [if_pos hp]
    exact goes_bind (P := fun _ _ _ _ => False) (goes_throw hv)
      fun _ _ _ _ hno => hno.elim
  · rw [if_neg hp]
    exact h hp

end Rules

/-! ## Rounds -/

/-- The variables of a run that goes on. -/
structure Going (settled : List Settlement) (v : RunVars) : Prop where
  outcome : v.outcome = .failed
  count : v.calls = v.evidence.length
  most : v.calls ≤ maxTools
  usage : 0 ≤ v.usage ∧ v.usage ≤ maxUsage
  prior : ∀ source ∈ v.priorEvidence.flatten, source ∈ v.accessIDs
  backed : Backed settled v.inputs v.targets

/-- The variables of a run with an answer. -/
structure Concluded (settled : List Settlement) (v : RunVars) : Prop where
  outcome : v.outcome = .completed
  count : v.calls = v.evidence.length
  most : v.calls ≤ maxTools
  usage : 0 ≤ v.usage ∧ v.usage ≤ maxUsage
  prior : ∀ source ∈ v.priorEvidence.flatten, source ∈ v.accessIDs
  backed : Backed settled v.inputs v.targets
  evidence : v.evidence ≠ []
  answer : v.answer ≠ ""
  caution : (∃ e ∈ v.evidence, e.outcome ≠ "observed") →
    v.answer = cautionText

theorem Going.rely {w w' : AssistantWorld} {v : RunVars}
    (h : Going w.settled v) (hr : Rely w w') : Going w'.settled v :=
  { h with backed := h.backed.mono hr.settled fun _ hsource => hsource }

theorem Backed.append {settled : List Settlement} {prompt more : List InputItem}
    {access : List String} (h : Backed settled prompt access)
    (hm : Backed settled more access) : Backed settled (prompt ++ more) access where
  tools callID result hmem := by
    rcases List.mem_append.mp hmem with hmem | hmem
    · exact h.tools callID result hmem
    · exact hm.tools callID result hmem
  prior runID text hmem := by
    rcases List.mem_append.mp hmem with hmem | hmem
    · exact h.prior runID text hmem
    · exact hm.prior runID text hmem

theorem backed_outputs (settled : List Settlement) (items : List PyValue)
    (access : List String) : Backed settled (items.map .output) access where
  tools _ _ hmem := by
    obtain ⟨_, _, h⟩ := List.mem_map.mp hmem
    cases h
  prior _ _ hmem := by
    obtain ⟨_, _, h⟩ := List.mem_map.mp hmem
    cases h

theorem backed_user (settled : List Settlement) (text : String)
    (access : List String) : Backed settled [.user text] access where
  tools _ _ hmem := by
    have h := List.mem_singleton.mp hmem
    cases h
  prior _ _ hmem := by
    have h := List.mem_singleton.mp hmem
    cases h

theorem sourcesOf_append (a b : List Evidence) :
    sourcesOf (a ++ b) = sourcesOf a ++ sourcesOf b := List.flatMap_append

/-! ### Prior runs -/

/-- A prior run that is taken up adds what it rests on to what is checked. -/
theorem going_takeUp {settled : List Settlement} {v : RunVars} {runID : String}
    {old : RunView} (h : Going settled v) (hold : Shown settled old) :
    Going settled (takeUp runID v old) := by
  rw [takeUp]
  split
  · next htake =>
      dsimp only
      split
      · exact h
      · obtain ⟨-, hcompleted, hquestion⟩ := htake
        obtain ⟨s, hs, hid, hdone, hbody⟩ := hold hcompleted fun heq =>
          hquestion (heq ▸ rfl)
        refine { h with prior := ?_, backed := ?_ }
        · intro source hsource
          simp only [List.flatten_append, List.mem_append] at hsource
          rcases hsource with hsource | hsource
          · exact List.mem_union_iff.mpr (.inl (h.prior source hsource))
          · exact List.mem_union_iff.mpr (.inr (by simpa using hsource))
        · have hgrows : ∀ source ∈ v.targets, source ∈ RunVars.targets { v with
              accessIDs := v.accessIDs ∪ old.body.targets.dedup
              priorEvidence := v.priorEvidence ++ [old.body.targets.dedup]
              inputs := v.inputs ++ [.user old.body.question,
                .assistant old.id (old.body.answer.take 2000).toString] } := by
            intro source hsource
            simp only [RunVars.targets, List.flatten_append, List.mem_append]
              at hsource ⊢
            tauto
          refine (h.backed.mono (fun _ hs => hs) hgrows).append
            ⟨fun callID result hmem => ?_, fun id text hmem => ?_⟩
          · simp at hmem
          · simp only [List.mem_cons, reduceCtorEq, List.not_mem_nil, or_false,
              false_or, InputItem.assistant.injEq] at hmem
            obtain ⟨rfl, -⟩ := hmem
            refine ⟨s, hs, hid, hdone, fun b hb source hsource => ?_⟩
            obtain rfl := Option.some.inj (hbody.symm.trans hb)
            simp only [RunVars.targets, List.flatten_append, List.mem_append]
            exact .inr (.inr (by simpa using List.mem_dedup.mpr hsource))
  · exact h

theorem going_foldl_takeUp {settled : List Settlement} {runID : String}
    {views : List RunView} (hviews : ∀ view ∈ views, Shown settled view)
    {v : RunVars} (h : Going settled v) :
    Going settled (views.foldl (takeUp runID) v) := by
  induction views generalizing v with
  | nil => exact h
  | cons view views ih =>
      exact ih (fun x hx => hviews x (List.mem_cons_of_mem _ hx))
        (going_takeUp h (hviews view List.mem_cons_self))

/-! ### Tools and the provider -/

section Rounds

variable {lib : AssistantLib} {v : RunVars} {w : AssistantWorld}
  {l : AssistantSession} {authorization conversationID runID : String}

theorem cautionText_ne : cautionText ≠ "" := by decide

theorem totalTokens_nonneg {response : List (String × PyValue)} {used : Int}
    (h : totalTokens response = .ok used) : 0 ≤ used := by
  rw [totalTokens] at h
  obtain ⟨usage, -, h⟩ := bind_eq_ok.mp h
  split at h
  · split at h
    · cases h
    · next hused =>
        obtain rfl := Except.ok.inj h
        exact not_lt.mp hused
  · cases h

/-- A check keeps a run going, and what it asked about is verified. -/
theorem goes_checked {β : Type} {f : _ → RunM β}
    {P : β → RunVars → AssistantWorld → AssistantSession → Prop}
    (hgo : Going w.settled v) {targets : List String}
    (h : ∀ a u m, Going u.settled v → m.verified = targets →
      Goes lib P (f a) v u m) :
    Goes lib P (ask (.checked authorization conversationID runID targets) >>= f)
      v w l :=
  goes_ask hgo.outcome fun _ _ _ => ⟨trivial, fun a u' l' hd _ hr =>
    h a u' l' (hgo.rely hr) (hd.2.2 ▸ rfl)⟩

theorem goes_conclude {output : List PyValue} (hgo : Going w.settled v) :
    Goes lib (fun _ v w _ => Concluded w.settled v) (conclude lib output) v w
      l := by
  refine goes_ofExcept hgo.outcome fun text _ => goes_get ?_
  refine goes_unless hgo.outcome fun hsome => goes_modifyLast ?_
  obtain ⟨hanswer, hevidence⟩ := not_or.mp hsome
  refine ⟨rfl, hgo.count, hgo.most, hgo.usage, hgo.prior, hgo.backed, hevidence,
    ?_, ?_⟩
  · show (if _ then _ else _) ≠ _
    split
    · exact hanswer
    · exact cautionText_ne
  · intro hcaution
    obtain ⟨e, he, houtcome⟩ := hcaution
    refine if_neg fun hall => houtcome ?_
    exact of_decide_eq_true (List.all_eq_true.mp hall e he)

theorem goes_record {β : Type} {f : Unit → RunM β}
    {P : β → RunVars → AssistantWorld → AssistantSession → Prop}
    {operator : Operator} {conversation : AssistantConversation}
    {tool outcome : String} {target : Option String} (htool : tool ≠ "run")
    (hv : v.outcome = .failed)
    (h : ∀ u m, Rely w u → Goes lib P (f ()) v u m) :
    Goes lib P (ask (.record operator conversation runID tool outcome target) >>=
      f) v w l :=
  goes_ask hv fun _ _ _ => ⟨htool, fun _ u' l' _ _ hr => h u' l' hr⟩

theorem goes_callTool {name : String} {args : ToolArgs} {operator : Operator}
    {conversation : AssistantConversation} (hname : name ≠ "run")
    (hv : v.outcome = .failed) :
    Goes lib (fun _ v' u _ => v' = v ∧ Rely w u)
      (callTool runID name args operator conversation) v w l := by
  refine Crew.holds_tryCatch fun u hu hr => ⟨trivial, fun a u' l' hd => ?_⟩
  have hguard : Guard u l (.execute name args operator conversation) := trivial
  have hr' : Rely w u' := hr.trans ((change_of_does hguard hd).rely hu)
  refine ⟨fun result hresult => ?_, fun fault hfault => ?_⟩
  · obtain rfl : a = .ok result := hresult
    exact ⟨rfl, hr'⟩
  · cases fault with
    | http status code =>
        exact goes_record hname hv fun _ _ _ => goes_throw hv
    | provider code => exact ⟨rfl, hr'⟩
    | timeout => exact goes_throw hv
    | cancelled => exact goes_throw hv
    | other => exact ⟨rfl, hr'⟩

theorem parse_ne_run {name arguments : Option PyValue} {tool : String}
    {args : ToolArgs} (h : parse lib name arguments = some (tool, args)) :
    tool ≠ "run" := by
  rw [parse.eq_def] at h
  split at h
  · split at h
    · next hknown =>
        obtain ⟨_, _, hpair⟩ := Option.map_eq_some_iff.mp h
        obtain ⟨rfl, -⟩ := Prod.mk.inj hpair
        have hin := (Bool.and_eq_true_iff.mp hknown).1
        rintro rfl
        exact absurd hin (by decide)
    · cases h
  · cases h

theorem goes_takeCall {operator : Operator}
    {conversation : AssistantConversation} {item : PyValue}
    (hgo : Going w.settled v) (hroom : v.calls < maxTools) :
    Goes lib (fun _ v' u _ => Going u.settled v' ∧ v'.calls = v.calls + 1)
      (takeCall lib authorization conversationID runID operator conversation
        item) v w l := by
  refine goes_ofExcept hgo.outcome fun members _ => goes_modify ?_
  split
  · exact goes_record (by decide) hgo.outcome fun _ _ _ => goes_throw hgo.outcome
  · next tool args hparse =>
      have hname := parse_ne_run hparse
      refine goes_get (goes_ask hgo.outcome fun u _ _ => ⟨trivial, ?_⟩)
      intro a u m _ _ hu
      refine goes_bind (goes_callTool hname hgo.outcome) ?_
      intro result v' x n hx
      obtain ⟨rfl, hx⟩ := hx
      refine goes_modify (goes_record hname hgo.outcome fun y _ hy => ?_)
      split
      · exact goes_throw hgo.outcome
      · next callID _ =>
          refine goes_modifyLast ⟨?_, rfl⟩
          have hnow := hgo.rely ((hu.trans hx).trans hy)
          refine { hnow with count := ?_, most := hroom, backed := ?_ }
          · show v.calls + 1 = (v.evidence ++ [result]).length
            rw [List.length_append, hgo.count]
            rfl
          · have hgrows : ∀ source ∈ v.targets,
                source ∈ sourcesOf (v.evidence ++ [result]) ++
                  v.priorEvidence.flatten := by
              intro source hsource
              simp only [RunVars.targets, sourcesOf_append, List.mem_append]
                at hsource ⊢
              tauto
            refine (hnow.backed.mono (fun _ hs => hs) hgrows).append
              ⟨fun id output hmem source hsource => ?_, fun id text hmem => ?_⟩
            · have heq := List.mem_singleton.mp hmem
              obtain ⟨-, rfl⟩ := InputItem.toolOutput.inj heq
              refine List.mem_append_left _ ?_
              rw [sourcesOf_append]
              exact List.mem_append_right _ (by simpa [sourcesOf] using hsource)
            · have heq := List.mem_singleton.mp hmem
              cases heq

theorem goes_takeCalls {operator : Operator}
    {conversation : AssistantConversation} {items : List PyValue}
    (hgo : Going w.settled v) (hroom : v.calls + items.length ≤ maxTools) :
    Goes lib (fun _ v' u _ => Going u.settled v')
      (takeCalls lib authorization conversationID runID operator conversation
        items) v w l := by
  induction items generalizing v w l with
  | nil => exact goes_pure hgo
  | cons item items ih =>
      rw [List.length_cons] at hroom
      refine goes_bind (goes_takeCall hgo (by omega)) fun _ v' u m hv' => ?_
      exact ih hv'.1 (by omega)

/-- One round: what the provider is sent was just checked. -/
theorem goes_takeRound (hgo : Going w.settled v) :
    Goes lib (fun b v' u _ => if b = true then Concluded u.settled v'
        else Going u.settled v')
      (takeRound lib authorization conversationID runID) v w l := by
  refine goes_get (goes_checked hgo fun _ u m hgo hverified => ?_)
  refine goes_unless hgo.outcome fun _ => ?_
  refine goes_ask hgo.outcome fun x _ hr => ⟨?_, ?_⟩
  · exact (hgo.rely hr).backed.mono (fun _ hs => hs) (hverified ▸ fun _ hs => hs)
  · intro response x' m' _ _ hr
    refine goes_checked (hgo.rely hr) fun a y n hgo _ => ?_
    refine goes_unless hgo.outcome fun _ => ?_
    refine goes_ofExcept hgo.outcome fun used hused => goes_modify ?_
    refine goes_unless hgo.outcome fun hlimit => ?_
    have hgo : Going y.settled { v with usage := v.usage + used } :=
      { hgo with usage := ⟨Int.add_nonneg hgo.usage.1 (totalTokens_nonneg hused),
          not_lt.mp hlimit⟩ }
    refine goes_ofExcept hgo.outcome fun output _ => ?_
    refine goes_ofExcept hgo.outcome fun functions _ => ?_
    by_cases hnone : functions.isEmpty = true
    · rw [if_pos hnone]
      exact goes_bind (goes_conclude hgo) fun _ _ _ _ hdone => goes_pure hdone
    · rw [if_neg hnone]
      refine goes_unless hgo.outcome fun hroom => goes_modify ?_
      refine goes_bind (goes_takeCalls { hgo with backed := ?_ }
        (not_lt.mp hroom)) fun _ _ _ _ hgo => goes_pure hgo
      exact hgo.backed.append (backed_outputs _ _ _)

end Rounds

section Run

variable {lib : AssistantLib} {v : RunVars} {w : AssistantWorld}
  {l : AssistantSession} {authorization conversationID runID : String}

theorem goes_takeRounds {n : Nat} (hgo : Going w.settled v) :
    Goes lib (fun _ v' u _ => Concluded u.settled v')
      (takeRounds lib authorization conversationID runID n) v w l := by
  induction n generalizing v w l with
  | zero => exact goes_throw hgo.outcome
  | succ n ih =>
      refine goes_bind (goes_takeRound hgo) fun last v' u m hv' => ?_
      cases last with
      | true => exact goes_pure hv'
      | false => exact ih hv'

theorem going_start (settled : List Settlement) : Going settled {} where
  outcome := rfl
  count := rfl
  most := by decide
  usage := by decide
  prior _ h := absurd h List.not_mem_nil
  backed := ⟨fun _ _ h => absurd h List.not_mem_nil,
    fun _ _ h => absurd h List.not_mem_nil⟩

/-- A run reaches an answer, or fails before it. -/
theorem goes_investigate :
    Goes lib (fun _ v' u _ => Concluded u.settled v')
      (investigate lib authorization conversationID runID) {} w l := by
  refine goes_checked (going_start w.settled) fun a u m hgo _ => ?_
  refine goes_ofExcept hgo.outcome fun payload _ => ?_
  refine goes_ask hgo.outcome fun x hx hr => ⟨trivial, ?_⟩
  intro prior x' m' hprior hx' hr'
  have hshown : ∀ view ∈ prior.runs, Shown x'.settled view := by
    obtain ⟨hreply, rfl, -⟩ := hprior
    exact shown_of_history hx' hreply.symm
  refine goes_modify (goes_modify (goes_takeRounds ?_))
  have hup : Going x'.settled ((prior.runs.drop (prior.runs.length - 7)).foldl
      (takeUp runID) {}) :=
    going_foldl_takeUp
      (fun view hview => hshown view (List.mem_of_mem_drop hview)) (hgo.rely hr')
  exact { hup with backed := hup.backed.append (backed_user _ _ _) }

/-! ## The end of a run -/

/-- From here `x` keeps the guards, and `P` holds of what it answers. -/
abbrev Keeps {α : Type} (lib : AssistantLib)
    (P : α → AssistantWorld → AssistantSession → Prop) (x : AssistantM α)
    (w : AssistantWorld) (l : AssistantSession) : Prop :=
  Crew.safe (rules lib) Sound (fun _ => Rely) Guard P x w l

theorem keeps_last {o : AssistantOp}
    {P : AssistantRes o → AssistantWorld → AssistantSession → Prop}
    (h : ∀ u, Sound u → Rely w u → Guard u l o ∧
      ∀ a u' l', happens u l o (.ok a) u' l' → Sound u' → Rely w u' →
        P a u' l') :
    Keeps lib P (request o) w l := by
  refine Crew.safe_request (R := fun _ => Rely) (G := Guard) (Q := P)
    fun u hu hr => ?_
  obtain ⟨hguard, hgo⟩ := h u hu hr
  refine ⟨hguard, fun a u' l' hd => ?_⟩
  rcases hd with hd | ⟨_, _, hfault, _⟩
  · have hchange := change_of_happens hguard hd
    exact hgo a u' l' hd (hu.change hchange) (hr.trans (hchange.rely hu))
  · cases hfault

theorem keeps_request {α : Type} {o : AssistantOp}
    {f : AssistantRes o → AssistantM α}
    {P : α → AssistantWorld → AssistantSession → Prop}
    (h : ∀ u, Sound u → Rely w u → Guard u l o ∧
      ∀ a u' l', happens u l o (.ok a) u' l' → Sound u' → Rely w u' →
        Keeps lib P (f a) u' l') :
    Keeps lib P (request o >>= f) w l :=
  Crew.safe_bind (keeps_last h)

theorem mem_sortedUnion {a b : List String} {x : String} :
    x ∈ sortedUnion a b ↔ x ∈ a ∨ x ∈ b := by
  rw [sortedUnion, List.mem_insertionSort, List.mem_dedup, List.mem_append]

/-- What a run may be finished with. -/
def Finishes (settled : List Settlement) (status : RunStatus) (answer : String)
    (evidence : List Evidence) (v : RunVars) (inherited : List String) : Prop :=
  status ≠ .running ∧
    (status ≠ .completed → answer ∈ fixedAnswers) ∧
    (status = .completed → Concluded settled v ∧ answer = v.answer ∧
      evidence = v.evidence ∧ inherited = v.accessIDs)

theorem Concluded.rely {w' : AssistantWorld} (h : Concluded w.settled v)
    (hr : Rely w w') : Concluded w'.settled v :=
  { h with backed := h.backed.mono hr.settled fun _ hsource => hsource }

theorem Finishes.ended {settled : List Settlement} {status : RunStatus}
    {answer question : String} {evidence : List Evidence}
    {inherited : List String}
    (h : Finishes settled status answer evidence v inherited) (r : AssistantRun) :
    Ended settled ⟨RunEnd.edit {
        status
        body := {
          question
          answer
          evidence
          accessEndpointIDs := sortedUnion inherited (sourcesOf evidence) }
        calls := v.calls
        usage := v.usage
        prompt := v.inputs } r, v.inputs⟩ := by
  obtain ⟨hover, hfixed, hcompleted⟩ := h
  refine ⟨hover, fun hdone => ?_, fun hno b hb => ?_⟩
  · obtain ⟨hv, rfl, rfl, rfl⟩ := hcompleted hdone
    refine ⟨_, rfl, hv.evidence, hv.count, hv.most, hv.usage, hv.answer,
      hv.caution, fun source hsource => mem_sortedUnion.mpr (.inr hsource), ?_⟩
    refine hv.backed.mono (fun _ hs => hs) fun source hsource => ?_
    rcases List.mem_append.mp hsource with hsource | hsource
    · exact mem_sortedUnion.mpr (.inr hsource)
    · exact mem_sortedUnion.mpr (.inl (hv.prior source hsource))
  · obtain rfl := Option.some.inj hb
    exact hfixed hno

theorem keeps_finish {status : RunStatus} {answer : String}
    {evidence : List Evidence} {inherited : List String}
    (h : ∀ u, Rely w u → Finishes u.settled status answer evidence v inherited) :
    Keeps lib (fun _ _ _ => True)
      (finish conversationID runID status answer evidence v inherited) w l := by
  refine keeps_request fun u _ hr => ⟨trivial, fun a u' m _ _ hr' => ?_⟩
  split
  · exact Crew.safe_pure trivial
  · refine Crew.safe_bind (Crew.safe_ofExcept fun stored _ => ?_)
    refine keeps_last fun x _ hx => ⟨?_, fun _ _ _ _ _ _ => trivial⟩
    exact fun r _ => (h x (hr'.trans hx)).ended r

theorem keeps_failed {α : Type} {status : RunStatus} {answer : String}
    {e : AssistantFault} (hover : status ≠ .running) (hno : status ≠ .completed)
    (hanswer : answer ∈ fixedAnswers) :
    Keeps lib (fun (_ : α) _ _ => True) (do
      finish conversationID runID status answer [] v []
      throw e) w l :=
  Crew.safe_bind (Crew.swp_mono (keeps_finish fun _ _ =>
      ⟨hover, fun _ => hanswer, fun hc => absurd hc hno⟩)
    fun _ _ _ _ _ _ => Crew.safe_throw)

end Run

section Requests

variable {lib : AssistantLib} {v : RunVars} {w : AssistantWorld}
  {l : AssistantSession} {authorization conversationID runID : String}

theorem keeps_conclusion
    (hv : Concluded w.settled v ∨
      v.outcome = .failed ∧ v.answer ∈ fixedAnswers) :
    Keeps lib (fun _ _ _ => True)
      (conclusion authorization conversationID runID v) w l := by
  have hready : ∀ u, Rely w u → Finishes u.settled v.outcome v.answer v.evidence
      v v.accessIDs := by
    intro u hr
    rcases hv with hv | ⟨hfailed, hanswer⟩
    · exact ⟨hv.outcome ▸ RunStatus.noConfusion,
        fun hno => absurd hv.outcome hno, fun _ => ⟨hv.rely hr, rfl, rfl, rfl⟩⟩
    · exact ⟨hfailed ▸ RunStatus.noConfusion, fun _ => hanswer,
        fun hc => RunStatus.noConfusion (hfailed.symm.trans hc)⟩
  refine Crew.safe_bind (Crew.safe_lift fun u hu hr => ⟨trivial, ?_⟩)
  intro a u' l' hd
  have hguard : Guard u l (.checked authorization conversationID runID
    v.targets) := trivial
  have hr' : Rely w u' := hr.trans ((change_of_does hguard hd).rely hu)
  change Crew.safe _ _ _ _ _ _ _ _
  split
  · exact keeps_finish fun x hx => hready x (hr'.trans hx)
  · exact keeps_finish fun _ _ => ⟨by decide, fun _ => by decide, nofun⟩
  · exact keeps_failed (by decide) (by decide) (by decide)
  · exact Crew.safe_throw

theorem keeps_run :
    Keeps lib (fun _ _ _ => True)
      (run lib authorization conversationID runID) w l := by
  refine Crew.safe_bind (Crew.safe_lift ?_)
  have hinvestigate : Goes lib (fun _ v' u _ => Concluded u.settled v')
      (investigate lib authorization conversationID runID) {} w l :=
    goes_investigate
  refine Crew.swp_mono hinvestigate fun r u m hr => ?_
  obtain ⟨result, v⟩ := r
  cases result with
  | ok _ => exact keeps_conclusion (.inl hr)
  | error fault =>
      have hv : v.outcome = .failed := hr
      have hlimits : limitsReached ∈ fixedAnswers := by simp [fixedAnswers]
      have hfailed : investigationFailed ∈ fixedAnswers := by
        simp [fixedAnswers]
      cases fault with
      | http status code =>
          exact keeps_failed (by decide) (by decide) (by decide)
      | cancelled => exact keeps_failed (by decide) (by decide) (by decide)
      | other => exact keeps_conclusion (.inr ⟨hv, hfailed⟩)
      | provider code => exact keeps_conclusion (.inr ⟨hv, hlimits⟩)
      | timeout => exact keeps_conclusion (.inr ⟨hv, hlimits⟩)

theorem authorize_spec {operator : Operator}
    {conversation : AssistantConversation}
    (h : authorize w authorization conversationID =
      .ok (operator, conversation)) :
    conversation ∈ w.conversations ∧ conversation.id = conversationID ∧
      conversation.operatorID = operator.id := by
  rw [authorize] at h
  obtain ⟨operator', -, h⟩ := bind_eq_ok.mp h
  split at h
  · cases h
  · next found hfound =>
      obtain ⟨-, h⟩ := unit_bind_eq_ok.mp h
      obtain ⟨rfl, rfl⟩ := Prod.mk.inj (Except.ok.inj h)
      have hsome := List.find?_some hfound
      simp only [decide_eq_true_eq] at hsome
      exact ⟨List.mem_of_find?_eq_some hfound, hsome.1, hsome.2.1⟩

/-- Every request keeps its guards. -/
theorem keeps_handler (r : AssistantRequest) :
    Keeps lib (fun _ _ _ => True) (r.handler lib) w l := by
  cases r with
  | create authorization clientID =>
      refine keeps_request fun _ _ _ => ⟨trivial, fun _ _ _ _ _ _ => ?_⟩
      exact keeps_request fun _ _ _ => ⟨trivial, fun _ _ _ _ _ _ =>
        Crew.safe_pure trivial⟩
  | «show» authorization conversationID =>
      exact keeps_request fun _ _ _ => ⟨trivial, fun _ _ _ _ _ _ =>
        Crew.safe_pure trivial⟩
  | run authorization conversationID requestID message =>
      refine keeps_request fun u hu _ => ⟨trivial, fun a u' m hauth _ _ => ?_⟩
      obtain ⟨operator, conversation⟩ := a
      obtain ⟨hauth, rfl, -⟩ := hauth
      obtain ⟨hin, -, hown⟩ := authorize_spec hauth.symm
      have hknown := hu.known hin
      refine keeps_request fun x _ hx => ⟨⟨hknown.rely hx, hown⟩, ?_⟩
      intro a x' m' _ _ _
      have hend : ∀ (y : AssistantWorld) n, Keeps lib (fun _ _ _ => True) (do
          let _ ← request (.history authorization conversationID)
          return ()) y n := fun y n =>
        keeps_request fun _ _ _ => ⟨trivial, fun _ _ _ _ _ _ =>
          Crew.safe_pure trivial⟩
      obtain ⟨runID, created⟩ := a
      cases created with
      | true =>
          exact Crew.safe_bind (Crew.swp_mono keeps_run
            fun _ y n _ _ _ => hend y n)
      | false => exact hend _ _
  | cancel authorization conversationID requestID =>
      refine keeps_request fun _ _ _ => ⟨trivial, fun _ _ _ _ _ _ => ?_⟩
      refine keeps_request fun _ _ _ => ⟨trivial, fun a _ _ _ _ _ => ?_⟩
      cases a with
      | none => exact Crew.safe_throw
      | some row =>
          exact keeps_request fun _ _ _ => ⟨trivial, fun _ _ _ _ _ _ =>
            Crew.safe_pure trivial⟩
  | prune time =>
      exact keeps_request fun _ _ _ => ⟨trivial, fun _ _ _ _ _ _ =>
        Crew.safe_pure trivial⟩

theorem keeps_program (r : AssistantRequest) :
    Crew.swp (rules lib) Sound (fun _ => Rely) Guard (fun _ _ _ => True)
      (r.program lib) w l :=
  Crew.swp_bind.mpr (Crew.swp_mono (keeps_handler r) fun _ _ _ _ => trivial)

end Requests

theorem Sound.drift {w w' : AssistantWorld} (h : Sound w) (hd : drift w w') :
    Sound w' := by
  obtain ⟨-, hconversations, hruns, htrail, hsettled, hdrawn⟩ := hd
  constructor <;> simp only [hconversations, hruns, htrail, hsettled, hdrawn]
  exacts [h.runIDs, h.conversationIDs, h.runsDrawn, h.conversationsDrawn,
    h.settledDrawn, h.settledOnce, h.waiting, h.unsettled, h.endsSettled,
    h.ended, h.trail]

/-- The tables and the requests are sound whatever they go through. -/
theorem good_steps {lib : AssistantLib} {c c' : AssistantCrew}
    (h : Crew.Good (rules lib) Sound (fun _ => Rely) Guard c)
    (hrun : AssistantSteps lib c c') :
    Crew.Good (rules lib) Sound (fun _ => Rely) Guard c' := by
  refine Crew.good_run_guarded (fun _ => .refl) (fun _ _ _ _ => .trans) ?_ ?_ ?_
    ?_ h hrun
  · exact fun w l o a w' l' hw hguard hd =>
      hw.change (change_of_does hguard hd)
  · exact fun w w' hw hd => ⟨hw.drift hd, fun _ => rely_of_drift hd⟩
  · intro w l p hw hp
    obtain ⟨-, r, rfl⟩ := hp
    exact keeps_program r
  · exact fun c t l o k a w' l' hw _ _ hguard hd _ _ _ _ =>
      (change_of_does hguard hd).rely hw

end NodeLink.Server.Assistant
